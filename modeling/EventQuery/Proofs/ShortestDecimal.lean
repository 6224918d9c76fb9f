import EventQuery.Proofs.Rounding

/-!
The shortest decimal of a double is rounded to it: a grid of decimals that is fine enough has
a point on one side of the number that is, and seventeen digits are always fine enough.
-/
namespace EventQuery.Number.Shortest

open Binary64 Reader

variable {m d : Nat} {q k : Int}

/-! ### Fractions -/

theorem denominator_pos : 0 < (scaled m q k).denominator :=
  Nat.mul_pos (Nat.pow_pos (by decide)) (Nat.pow_pos (by decide))

/-- The fraction stands for `m · 2 ^ q · 10 ^ -k`. -/
theorem exists_scale (m : Nat) (q k : Int) : ∃ scale : ℚ, 0 < scale ∧
    ((scaled m q k).numerator : ℚ) = m * 2 ^ q * scale ∧
      ((scaled m q k).denominator : ℚ) = 10 ^ k * scale := by
  refine ⟨2 ^ (-q).toNat * 10 ^ (-k).toNat, by positivity, ?_, ?_⟩
  · rw [scaled, zpow_eq_div two_ne_zero q]
    simp only [twoTo_eq, tenTo_eq, Nat.cast_mul, Nat.cast_pow, Nat.cast_ofNat]
    field_simp
  · rw [scaled, zpow_eq_div (by norm_num) k]
    simp only [twoTo_eq, tenTo_eq, Nat.cast_mul, Nat.cast_pow, Nat.cast_ofNat]
    field_simp

theorem numerator_le : (scaled m q k).numerator ≤ d * (scaled m q k).denominator ↔
    (m * 2 ^ q : ℚ) ≤ d * 10 ^ k := by
  obtain ⟨scale, positive, numerator, denominator⟩ := exists_scale m q k
  rw [← Nat.cast_le (α := ℚ), Nat.cast_mul, numerator, denominator, ← mul_assoc,
    mul_le_mul_iff_of_pos_right positive]

theorem numerator_lt : (scaled m q k).numerator < d * (scaled m q k).denominator ↔
    (m * 2 ^ q : ℚ) < d * 10 ^ k := by
  obtain ⟨scale, positive, numerator, denominator⟩ := exists_scale m q k
  rw [← Nat.cast_lt (α := ℚ), Nat.cast_mul, numerator, denominator, ← mul_assoc,
    mul_lt_mul_iff_of_pos_right positive]

theorem le_numerator : d * (scaled m q k).denominator ≤ (scaled m q k).numerator ↔
    (d * 10 ^ k : ℚ) ≤ m * 2 ^ q := by
  rw [← Nat.not_lt, numerator_lt, not_lt]

theorem lt_numerator : d * (scaled m q k).denominator < (scaled m q k).numerator ↔
    (d * 10 ^ k : ℚ) < m * 2 ^ q := by
  rw [← Nat.not_le, numerator_le, not_le]

/-! ### The interval of a number -/

theorem inside_iff (other : m ≠ 0) : inside m q k d = true ↔ RoundsTo m q (d * 10 ^ k) := by
  have narrow : (if m = twoTo mantissaBits ∧ leastExponent < q then 1 else 2) =
      reach m (q + 1074).toNat := by
    refine if_congr (and_congr_right fun _ => ?_) rfl rfl
    rw [leastExponent]
    omega
  have low : ((4 * m - reach m (q + 1074).toNat : Nat) : ℚ) = 4 * m - reach m (q + 1074).toNat := by
    rw [Nat.cast_sub, Nat.cast_mul, Nat.cast_ofNat]
    unfold reach
    split_ifs <;> omega
  have high : ((4 * m + 2 : Nat) : ℚ) = 4 * m + 2 := by push_cast; rfl
  unfold inside RoundsTo
  dsimp only
  simp only [narrow]
  split_ifs with even
  · have notOdd : m % 2 ≠ 1 := by omega
    rw [Bool.and_eq_true, decide_eq_true_eq, decide_eq_true_eq, numerator_le, le_numerator, low, high]
    simp only [notOdd, IsEmpty.forall_iff, and_true]
  · have odd : m % 2 = 1 := by omega
    rw [Bool.and_eq_true, decide_eq_true_eq, decide_eq_true_eq, numerator_lt, lt_numerator, low, high]
    simp only [odd, true_imp_iff]
    exact ⟨fun both => ⟨both.1.le, both.2.le, both⟩, fun all => all.2.2⟩

/-! ### Grids -/

theorem roundsTo_of_onGrid {tie : Tie} {decimal : Decimal} (other : m ≠ 0)
    (found : onGrid tie m q k = some decimal) :
    RoundsTo m q (decimal.digits * 10 ^ decimal.exponent) := by
  unfold onGrid at found
  dsimp only at found
  split at found
  · rename_i lower upper
    cases found
    split_ifs
    · exact (inside_iff other).1 upper
    · exact (inside_iff other).1 lower
  · rename_i lower _
    cases found
    exact (inside_iff other).1 lower
  · rename_i _ upper
    cases found
    exact (inside_iff other).1 upper
  · cases found

theorem roundsTo_of_lt {v : ℚ} (low : (4 * m - reach m (q + 1074).toNat) * 2 ^ (q - 2) < v)
    (high : v < (4 * m + 2) * 2 ^ (q - 2)) : RoundsTo m q v :=
  ⟨low.le, high.le, fun _ => ⟨low, high⟩⟩

theorem zpow_quarters (q : Int) : (2 : ℚ) ^ q = 4 * 2 ^ (q - 2) := by
  rw [zpow_sub₀ two_ne_zero]
  norm_num
  ring

/-- A grid with less than three quarters of a unit between its points has one inside. -/
theorem onGrid_ne_none {tie : Tie} (other : m ≠ 0) (fine : (10 : ℚ) ^ k < 3 * 2 ^ (q - 2)) :
    onGrid tie m q k ≠ none := by
  have unit : (0 : ℚ) < 2 ^ (q - 2) := zpow_pos two_pos _
  have reaches : (1 : ℚ) ≤ reach m (q + 1074).toNat := by
    unfold reach
    split_ifs <;> norm_num
  intro missed
  unfold onGrid at missed
  dsimp only at missed
  set below := (scaled m q k).numerator / (scaled m q k).denominator
  have notAbove : (below * 10 ^ k : ℚ) ≤ m * 2 ^ q := le_numerator.1 (Nat.div_mul_le_self _ _)
  have next : (m * 2 ^ q : ℚ) < (below + 1 : Nat) * 10 ^ k :=
    numerator_lt.1 ((Nat.div_lt_iff_lt_mul denominator_pos).1 (Nat.lt_succ_self _))
  split at missed <;> try cases missed
  rename_i lower upper
  rw [Bool.eq_false_iff, ne_eq, inside_iff other] at lower upper
  rw [zpow_quarters] at notAbove next
  push_cast at next upper
  have far : (below * 10 ^ k : ℚ) ≤ (4 * m - reach m (q + 1074).toNat) * 2 ^ (q - 2) :=
    not_lt.1 fun near => lower (roundsTo_of_lt near (by linarith))
  have step : (2 : ℚ) ^ (q - 2) ≤ reach m (q + 1074).toNat * 2 ^ (q - 2) :=
    le_mul_of_one_le_left unit.le reaches
  exact upper (roundsTo_of_lt (by linarith) (by linarith))

/-! ### The search -/

theorem roundsTo_search {tie : Tie} (other : m ≠ 0) {count : Nat} {k : Int}
    (found : ∃ tries : Nat, tries < count ∧ onGrid tie m q (k - tries) ≠ none) :
    RoundsTo m q ((search tie m q count k).digits * 10 ^ (search tie m q count k).exponent) := by
  induction count generalizing k with
  | zero =>
    obtain ⟨tries, less, -⟩ := found
    cases less
  | succ count ih =>
    rw [search]
    cases here : onGrid tie m q k with
    | some decimal => exact roundsTo_of_onGrid other here
    | none =>
      obtain ⟨tries, less, later⟩ := found
      cases tries with
      | zero => exact absurd (by simpa using here) later
      | succ tries =>
        refine ih ⟨tries, Nat.lt_of_succ_lt_succ less, ?_⟩
        rwa [Nat.cast_succ, show k - (tries + 1 : Int) = k - 1 - tries by ring] at later

/-- The leading digit of a fraction has at most this weight. -/
theorem leadingExponent_le {r : Ratio} (positive : 0 < r.numerator) (fraction : 0 < r.denominator) :
    (10 : ℚ) ^ leadingExponent r ≤ r.numerator / r.denominator := by
  have numerator : (0 : ℚ) < r.numerator := Nat.cast_pos.2 positive
  have denominator : (0 : ℚ) < r.denominator := Nat.cast_pos.2 fraction
  have count (n : Nat) : ((digitCount n : Int) - 1) = (digitCount n - 1 : Nat) := by
    have : 0 < digitCount n := Nat.length_toDigits_pos
    omega
  unfold leadingExponent
  dsimp only
  split_ifs with whole power
  · have below := (Nat.le_div_iff_mul_le fraction).1
      (digitCount_le (Nat.ne_of_gt (Nat.div_pos whole fraction)))
    rw [count, zpow_natCast, le_div_iff₀ denominator]
    exact_mod_cast below
  · rw [count, zpow_neg, zpow_natCast, inv_le_iff_one_le_mul₀ (by positivity), div_mul_eq_mul_div,
      one_le_div denominator]
    exact_mod_cast power.ge
  · have below : r.denominator < 10 ^ digitCount (r.denominator / r.numerator) * r.numerator :=
      (Nat.div_lt_iff_lt_mul positive).1 (lt_digitCount _)
    rw [zpow_neg, zpow_natCast, inv_le_iff_one_le_mul₀ (by positivity), div_mul_eq_mul_div,
      one_le_div denominator, mul_comm]
    exact_mod_cast below.le

theorem strip_eq (count : Nat) (decimal : Decimal) :
    ((strip count decimal).digits * 10 ^ (strip count decimal).exponent : ℚ) =
      decimal.digits * 10 ^ decimal.exponent := by
  induction count generalizing decimal with
  | zero => rfl
  | succ count ih =>
    rw [strip]
    split_ifs with zero
    · rw [ih, zpow_add_one₀ (by norm_num)]
      have whole : (decimal.digits : ℚ) = 10 * (decimal.digits / 10 : Nat) := by
        exact_mod_cast (Nat.mul_div_cancel' (Nat.dvd_of_mod_eq_zero zero.1)).symm
      rw [whole]
      ring
    · rfl

/-- The shortest decimal of a number is rounded to it. -/
theorem roundsTo_shortest {tie : Tie} (other : m ≠ 0) (small : m < 2 ^ 53) :
    RoundsTo m q ((shortest tie m q).digits * 10 ^ (shortest tie m q).exponent) := by
  rw [shortest, if_neg other, strip_eq]
  refine roundsTo_search other ⟨17, by decide, onGrid_ne_none other ?_⟩
  obtain ⟨scale, positive, numerator, denominator⟩ := exists_scale m q 0
  have unit : (0 : ℚ) < 2 ^ (q - 2) := zpow_pos two_pos _
  have leading : (10 : ℚ) ^ leadingExponent (scaled m q 0) ≤ m * 2 ^ q := by
    have weight := leadingExponent_le (r := scaled m q 0)
      (Nat.mul_pos (Nat.mul_pos (Nat.pos_of_ne_zero other) (Nat.pow_pos (by decide)))
        (Nat.pow_pos (by decide))) denominator_pos
    rwa [numerator, denominator, zpow_zero, one_mul, mul_div_cancel_right₀ _ positive.ne'] at weight
  have most : (m : ℚ) ≤ 2 ^ 53 := by exact_mod_cast small.le
  calc (10 : ℚ) ^ (leadingExponent (scaled m q 0) - (17 : Nat))
      = 10 ^ leadingExponent (scaled m q 0) / 10 ^ 17 := by
        rw [zpow_sub₀ (by norm_num), zpow_natCast]
    _ ≤ 2 ^ 53 * (4 * 2 ^ (q - 2)) / 10 ^ 17 := by
        rw [← zpow_quarters]
        refine div_le_div_of_nonneg_right (leading.trans ?_) (by norm_num)
        exact mul_le_mul_of_nonneg_right most (zpow_pos two_pos _).le
    _ < 3 * 2 ^ (q - 2) := by
        rw [div_lt_iff₀ (by norm_num)]
        linarith

end EventQuery.Number.Shortest
