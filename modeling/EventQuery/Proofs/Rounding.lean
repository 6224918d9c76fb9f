import EventQuery.Number.Reader
import EventQuery.Proofs.DoubleBits

/-!
Rounding of fractions and decimals. A finite double stands for the rationals that are closer
to it than to its neighbours; whatever stands for one of them is read as that double.
-/
namespace EventQuery.Number

open Binary64

theorem twoTo_eq (n : Nat) : twoTo n = 2 ^ n := rfl

theorem tenTo_eq (n : Nat) : tenTo n = 10 ^ n := rfl

namespace Binary64

/-! ### The nearest number -/

/-- A fraction at most half a unit away from `m` units is rounded to `m`, if the half counts
only when `m` is even. -/
theorem nearest_eq {a unit m : Nat} (positive : 0 < unit) (low : 2 * (unit * m) ≤ 2 * a + unit)
    (high : 2 * a ≤ 2 * (unit * m) + unit)
    (odd : m % 2 = 1 → 2 * (unit * m) < 2 * a + unit ∧ 2 * a < 2 * (unit * m) + unit) :
    nearest a unit = m := by
  have whole := Nat.div_add_mod a unit
  have rest := Nat.mod_lt a positive
  have notAbove : a / unit < m + 1 := by
    rw [Nat.div_lt_iff_lt_mul positive, Nat.mul_comm, Nat.mul_succ]
    omega
  have notBelow : m ≤ a / unit + 1 := by
    by_contra far
    have steps : unit * (a / unit + 2) ≤ unit * m := Nat.mul_le_mul_left unit (by omega)
    rw [Nat.mul_add] at steps
    omega
  unfold nearest
  dsimp only
  rcases Nat.lt_or_ge (a / unit) m with less | same
  · obtain rfl : m = a / unit + 1 := by omega
    rw [Nat.mul_succ] at low odd
    rw [if_pos (by omega)]
  · obtain rfl : m = a / unit := by omega
    rw [if_neg (by omega)]

/-! ### Fractions -/

/-- How far below `m` in quarters of a unit a fraction is rounded to it: half as far below a
power of two as otherwise, unless the numbers below it are as dense as those above. -/
def reach (m shift : Nat) : Nat := if m = 2 ^ 52 ∧ shift ≠ 0 then 1 else 2

theorem log2_div {a b k : Nat} (positive : 0 < b) (low : b * 2 ^ k ≤ a)
    (high : a < b * 2 ^ (k + 1)) :
    (a / b).log2 = k := by
  have least : 2 ^ k ≤ a / b := by
    rw [Nat.le_div_iff_mul_le positive, Nat.mul_comm]
    exact low
  rw [Nat.log2_eq_iff (Nat.ne_of_gt (Nat.lt_of_lt_of_le (Nat.two_pow_pos k) least)),
    Nat.div_lt_iff_lt_mul positive, Nat.mul_comm _ b]
  exact ⟨least, high⟩

/-- A fraction that is rounded to `m · 2 ^ shift` has the bits of it. -/
theorem magnitude_eq {a b m shift : Nat} (positive : 0 < b) (small : m < 2 ^ 53)
    (full : shift ≠ 0 → 2 ^ 52 ≤ m)
    (low : 4 * (b * 2 ^ shift * m) ≤ 4 * a + reach m shift * (b * 2 ^ shift))
    (high : 4 * a ≤ 4 * (b * 2 ^ shift * m) + 2 * (b * 2 ^ shift))
    (odd : m % 2 = 1 → 4 * (b * 2 ^ shift * m) < 4 * a + reach m shift * (b * 2 ^ shift) ∧
      4 * a < 4 * (b * 2 ^ shift * m) + 2 * (b * 2 ^ shift)) :
    ((a / b).log2 - 52) * 2 ^ 52 + nearest a (b * 2 ^ ((a / b).log2 - 52)) = shift * 2 ^ 52 + m := by
  have unit : 0 < b * 2 ^ shift := Nat.mul_pos positive (Nat.two_pow_pos shift)
  have near : reach m shift * (b * 2 ^ shift) ≤ 2 * (b * 2 ^ shift) := by
    refine Nat.mul_le_mul_right _ ?_
    unfold reach
    split_ifs <;> omega
  have most : b * 2 ^ shift * (m + 1) ≤ b * 2 ^ shift * 2 ^ 53 := Nat.mul_le_mul_left _ small
  rw [Nat.mul_add_one] at most
  have above (k : Nat) : b * 2 ^ (k + shift) = b * 2 ^ shift * 2 ^ k := by
    rw [Nat.mul_assoc, ← Nat.pow_add, Nat.add_comm]
  have below : a < b * 2 ^ (52 + shift + 1) := by
    rw [show 52 + shift + 1 = 53 + shift by omega, above]
    omega
  by_cases same : shift = 0 ∨ b * 2 ^ (52 + shift) ≤ a
  · -- The fraction and the number are on the same scale.
    have log : (a / b).log2 - 52 = shift := by
      rcases same with rfl | least
      · by_cases zero : a / b = 0
        · rw [zero]
          rfl
        · rw [Nat.mul_comm] at below
          have := (Nat.log2_lt zero).2 ((Nat.div_lt_iff_lt_mul positive).2 below)
          omega
      · rw [log2_div positive least below, Nat.add_sub_cancel_left]
    have rounds : nearest a (b * 2 ^ shift) = m :=
      nearest_eq unit (by omega) (by omega) fun isOdd => by
        have := odd isOdd
        omega
    rw [log, rounds]
  · -- The number is a power of two, and the fraction below it on a finer scale.
    obtain ⟨other, less⟩ := not_or.1 same
    obtain ⟨finer, rfl⟩ := Nat.exists_eq_add_one_of_ne_zero other
    rw [above] at less
    have power : m = 2 ^ 52 := by
      by_contra larger
      have : b * 2 ^ (finer + 1) * (2 ^ 52 + 1) ≤ b * 2 ^ (finer + 1) * m :=
        Nat.mul_le_mul_left _ (by have := full other; omega)
      omega
    subst power
    rw [reach, if_pos ⟨rfl, other⟩] at low
    clear odd near same below most
    have log : (a / b).log2 - 52 = finer := by
      have least : b * 2 ^ (51 + (finer + 1)) ≤ a := by
        rw [above]
        omega
      have most : a < b * 2 ^ (51 + (finer + 1) + 1) := by
        rw [show 51 + (finer + 1) + 1 = 52 + (finer + 1) by omega, above]
        omega
      rw [log2_div positive least most]
      omega
    have half : b * 2 ^ (finer + 1) = 2 * (b * 2 ^ finer) := by ring
    rw [half] at unit low less
    have rounds : nearest a (b * 2 ^ finer) = 2 ^ 53 :=
      nearest_eq (by omega) (by omega) (by omega) (by omega)
    rw [log, rounds]
    omega

/-! ### Doubles -/

/-- The exponent counts from the least one, and the mantissa has 53 bits, all of them in use
unless the exponent is the least. -/
structure Parts.Normal (parts : Parts) (shift : Nat) : Prop where
  exponent : parts.exponent = -1074 + shift
  small : parts.mantissa < 2 ^ 53
  full : shift ≠ 0 → 2 ^ 52 ≤ parts.mantissa
  bounded : shift ≤ 2045

theorem exists_normal {x : Float} {parts : Parts} (finite : kind x = .finite parts) :
    ∃ shift, parts.Normal shift ∧
      x.toBits.toNat = (if parts.negative then 2 ^ 63 else 0) + shift * 2 ^ 52 + parts.mantissa := by
  have bound := x.toBits.toNat_lt
  have sign : (if x.toBits.toNat / 2 ^ 63 == 1 then 2 ^ 63 else 0) = x.toBits.toNat / 2 ^ 63 * 2 ^ 63 := by
    split_ifs with one
    · rw [beq_iff_eq.1 one, Nat.one_mul]
    · rw [beq_iff_eq] at one
      omega
  rw [kind_eq] at finite
  dsimp only at finite
  split_ifs at finite with top least
  · cases finite
    refine ⟨0, ⟨rfl, by dsimp only; omega, fun other => absurd rfl other, by omega⟩, ?_⟩
    dsimp only
    rw [sign]
    omega
  · cases finite
    refine ⟨x.toBits.toNat / 2 ^ 52 % 2 ^ 11 - 1, ⟨by dsimp only; omega, by dsimp only; omega,
      fun _ => by dsimp only; omega, by omega⟩, ?_⟩
    dsimp only
    rw [sign]
    omega

/-- The rationals that are rounded to `m · 2 ^ q`: those closer to it than to its neighbours,
and halfway between if `m` is even. -/
def RoundsTo (m : Nat) (q : Int) (v : ℚ) : Prop :=
  let low : ℚ := (4 * m - reach m (q + 1074).toNat) * 2 ^ (q - 2)
  let high : ℚ := (4 * m + 2) * 2 ^ (q - 2)
  low ≤ v ∧ v ≤ high ∧ (m % 2 = 1 → low < v ∧ v < high)

/-- A fraction and the ends of an interval, counted in one unit. -/
theorem exists_unit {b : Nat} (fraction : 0 < b) (a least shift : Nat) : ∃ unit : ℚ, 0 < unit ∧
    (a / b : ℚ) = (4 * (a * 2 ^ least) : Nat) * unit ∧
    ∀ n : ℚ, n * 2 ^ (-least + shift - 2 : Int) = n * (b * 2 ^ shift : Nat) * unit := by
  have denominator : (0 : ℚ) < b := Nat.cast_pos.2 fraction
  have scale : (2 : ℚ) ^ (-least + shift - 2 : Int) = 2 ^ shift / (4 * 2 ^ least) := by
    rw [show (-least + shift - 2 : Int) = shift - (2 + least : Nat) by push_cast; ring,
      zpow_sub₀ two_ne_zero, zpow_natCast, zpow_natCast, pow_add]
    norm_num
  refine ⟨1 / (4 * 2 ^ least * b), by positivity, ?_, fun n => ?_⟩
  · push_cast
    field_simp
  · rw [scale]
    push_cast
    field_simp

theorem RoundsTo.bounds {m : Nat} {q : Int} {v : ℚ} (rounds : RoundsTo m q v) (other : m ≠ 0)
    (small : m < 2 ^ 53) : 2 ^ (q - 1) ≤ v ∧ v < 2 ^ (q + 53) := by
  have unit : (0 : ℚ) < 2 ^ (q - 2) := zpow_pos two_pos _
  have reaches : (reach m (q + 1074).toNat : ℚ) ≤ 2 := by
    unfold reach
    split_ifs <;> norm_num
  have least : (1 : ℚ) ≤ m := by exact_mod_cast Nat.one_le_iff_ne_zero.2 other
  have most : (m : ℚ) ≤ 2 ^ 53 - 1 := by
    have : m + 1 ≤ 2 ^ 53 := small
    have cast : ((m + 1 : Nat) : ℚ) ≤ (2 ^ 53 : Nat) := Nat.cast_le.2 this
    push_cast at cast
    linarith
  obtain ⟨low, high, -⟩ := rounds
  constructor
  · refine le_trans ?_ low
    rw [show q - 1 = (q - 2) + 1 by ring, zpow_add₀ two_ne_zero, zpow_one, mul_comm]
    exact mul_le_mul_of_nonneg_right (by linarith) unit.le
  · refine lt_of_le_of_lt high ?_
    rw [show q + 53 = (q - 2) + (55 : Nat) by push_cast; ring, zpow_add₀ two_ne_zero, zpow_natCast,
      mul_comm _ ((2 : ℚ) ^ (q - 2))]
    exact mul_lt_mul_of_pos_left (by linarith) unit

/-- A fraction is read as the double it is rounded to. -/
theorem ofFraction_eq {x : Float} {parts : Parts} (finite : kind x = .finite parts)
    (positive : parts.negative = false) {a b : Nat} (fraction : 0 < b)
    (rounds : RoundsTo parts.mantissa parts.exponent (a / b)) : ofFraction a b = x := by
  obtain ⟨shift, normal, bits⟩ := exists_normal finite
  obtain ⟨unit, unitPositive, value, ends⟩ := exists_unit fraction a 1074 shift
  have exponent : parts.exponent - 2 = -(1074 : Nat) + shift - 2 := by
    rw [normal.exponent]
    rfl
  have count : (parts.exponent + 1074).toNat = shift := by
    rw [normal.exponent]
    omega
  unfold RoundsTo at rounds
  dsimp only at rounds
  rw [exponent, count, value, ends, ends] at rounds
  simp only [mul_le_mul_iff_of_pos_right unitPositive, mul_lt_mul_iff_of_pos_right unitPositive] at rounds
  obtain ⟨low, high, odd⟩ := rounds
  rw [ofFraction, show (-leastExponent).toNat = 1074 from rfl, twoTo_eq]
  generalize a * 2 ^ 1074 = scaled at low high odd ⊢
  have magnitude : ((scaled / b).log2 - 52) * 2 ^ 52 + nearest scaled (b * 2 ^ ((scaled / b).log2 - 52)) =
      x.toBits.toNat := by
    rw [bits, positive, if_neg (by decide), Nat.zero_add]
    refine magnitude_eq fraction normal.small normal.full ?_ ?_ fun isOdd => ?_
    · rw [← Nat.cast_le (α := ℚ)]
      push_cast at low ⊢
      linarith
    · rw [← Nat.cast_le (α := ℚ)]
      push_cast at high ⊢
      linarith
    · obtain ⟨low, high⟩ := odd isOdd
      rw [← Nat.cast_lt (α := ℚ), ← Nat.cast_lt (α := ℚ)]
      push_cast at low high ⊢
      constructor <;> linarith
  rw [show mantissaBits = 52 from rfl, twoTo_eq, twoTo_eq, twoTo_eq, magnitude, Nat.min_eq_left,
    UInt64.ofNat_toNat, ofBits_toBits]
  have := normal.small
  have := normal.bounded
  rw [bits, positive, if_neg (by decide)]
  omega

end Binary64

/-! ### Decimals -/

namespace Reader

theorem zpow_eq_div {base : ℚ} (other : base ≠ 0) (n : Int) :
    base ^ n = base ^ n.toNat / base ^ (-n).toNat := by
  rw [← zpow_natCast, ← zpow_natCast, ← zpow_sub₀ other]
  congr 1
  omega

open Shortest in
theorem lt_digitCount (n : Nat) : n < 10 ^ digitCount n :=
  (Nat.length_toDigits_le_iff (by decide) Nat.length_toDigits_pos).1 (Nat.le_refl _)

open Shortest in
theorem digitCount_le {n : Nat} (other : n ≠ 0) : 10 ^ (digitCount n - 1) ≤ n := by
  by_cases one : digitCount n - 1 = 0
  · rw [one]
    omega
  · have more := (Nat.length_toDigits_le_iff (n := n) (k := digitCount n - 1) (b := 10) (by decide)
      (Nat.pos_of_ne_zero one)).not
    have count : ¬digitCount n ≤ digitCount n - 1 := by omega
    exact Nat.le_of_not_lt (more.1 count)

/-- A decimal is read as the double it is rounded to. -/
theorem ofDecimal_eq {x : Float} {parts : Parts} (finite : kind x = .finite parts)
    (positive : parts.negative = false) (other : parts.mantissa ≠ 0) {digits : Nat} {exponent : Int}
    (rounds : RoundsTo parts.mantissa parts.exponent (digits * 10 ^ exponent)) :
    ofDecimal digits exponent = x := by
  obtain ⟨shift, normal, -⟩ := exists_normal finite
  obtain ⟨low, high⟩ := rounds.bounds other normal.small
  have scale : (0 : ℚ) < 10 ^ exponent := zpow_pos (by norm_num) _
  have digitsOther : digits ≠ 0 := by
    rintro rfl
    rw [Nat.cast_zero, zero_mul] at low
    exact absurd low (not_le.2 (zpow_pos two_pos _))
  have above : (digits * 10 ^ exponent : ℚ) < 10 ^ (Shortest.digitCount digits + exponent) := by
    rw [zpow_add₀ (by norm_num), zpow_natCast]
    refine mul_lt_mul_of_pos_right ?_ scale
    exact_mod_cast lt_digitCount digits
  have below : (10 ^ (Shortest.digitCount digits + exponent - 1) : ℚ) ≤ digits * 10 ^ exponent := by
    have count : 0 < Shortest.digitCount digits := Nat.length_toDigits_pos
    rw [show Shortest.digitCount digits + exponent - 1 =
      (Shortest.digitCount digits - 1 : Nat) + exponent by omega, zpow_add₀ (by norm_num), zpow_natCast]
    refine mul_le_mul_of_nonneg_right ?_ scale.le
    exact_mod_cast digitCount_le digitsOther
  have notLow : ¬(Shortest.digitCount digits + exponent < -330) := by
    intro less
    have tiny : (10 : ℚ) ^ (-331 : Int) < 2 ^ (-1075 : Int) := by
      rw [zpow_neg, zpow_neg]
      refine inv_strictAnti₀ (zpow_pos two_pos _) ?_
      exact_mod_cast (by decide +kernel : 2 ^ 1075 < 10 ^ 331)
    refine absurd tiny (not_lt.2 ?_)
    calc (2 : ℚ) ^ (-1075 : Int)
        ≤ 2 ^ (parts.exponent - 1) := zpow_le_zpow_right₀ one_le_two (by rw [normal.exponent]; omega)
      _ ≤ digits * 10 ^ exponent := low
      _ ≤ 10 ^ (Shortest.digitCount digits + exponent) := above.le
      _ ≤ 10 ^ (-331 : Int) := zpow_le_zpow_right₀ (by norm_num) (by omega)
  have notHigh : ¬(310 < Shortest.digitCount digits + exponent) := by
    intro more
    have huge : (2 : ℚ) ^ (1024 : Int) < 10 ^ (310 : Int) := by
      exact_mod_cast (by decide +kernel : 2 ^ 1024 < 10 ^ 310)
    refine absurd huge (not_lt.2 ?_)
    calc (10 : ℚ) ^ (310 : Int)
        ≤ 10 ^ (Shortest.digitCount digits + exponent - 1) :=
          zpow_le_zpow_right₀ (by norm_num) (by omega)
      _ ≤ digits * 10 ^ exponent := below
      _ ≤ 2 ^ (parts.exponent + 53) := high.le
      _ ≤ 2 ^ (1024 : Int) :=
        zpow_le_zpow_right₀ one_le_two (by rw [normal.exponent]; have := normal.bounded; omega)
  rw [ofDecimal, if_neg (not_or.2 ⟨digitsOther, notLow⟩), if_neg notHigh]
  refine ofFraction_eq finite positive (Nat.pow_pos (by decide)) ?_
  rw [tenTo_eq, tenTo_eq, Nat.cast_mul, Nat.cast_pow, Nat.cast_pow, mul_div_assoc]
  rw [zpow_eq_div (by norm_num)] at rounds
  exact rounds

end Reader

end EventQuery.Number
