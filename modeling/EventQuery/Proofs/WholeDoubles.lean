import EventQuery.Proofs.DoubleOrder

/-!
Whole numbers as doubles. Beyond 53 bits a whole number is rounded, so different ones may become
the same double, but never two in the wrong order.
-/
namespace EventQuery.Number.Binary64

open Float.Model (Format UnpackedFloat)
open Float.Model.UnpackedFloat (ExtendedMantissa roundWithAccuracy shiftToTargetExponent)

variable {a b m n shift : Nat} {e : Int} {sign : UnpackedFloat.Sign} {u : UnpackedFloat}

/-! ### The nearest number -/

theorem nearest_bounds (a b : Nat) : a / b ≤ nearest a b ∧ nearest a b ≤ a / b + 1 := by
  unfold nearest
  dsimp only
  split_ifs <;> omega

theorem nearest_mono {unit : Nat} (less : a ≤ b) :
    nearest a unit ≤ nearest b unit := by
  have below := Nat.div_le_div_right (c := unit) less
  rcases Nat.lt_or_eq_of_le below with apart | same
  · exact (nearest_bounds a unit).2.trans (apart.trans_le (nearest_bounds b unit).1)
  · have rest : a % unit ≤ b % unit := by
      have := Nat.div_add_mod a unit
      have := Nat.div_add_mod b unit
      rw [same] at *
      omega
    unfold nearest
    rw [same]
    dsimp only
    split_ifs <;> omega

theorem nearest_mul_right {unit factor : Nat} (positive : 0 < factor) :
    nearest (a * factor) (unit * factor) = nearest a unit := by
  have double : 2 * (a % unit * factor) = 2 * (a % unit) * factor := (Nat.mul_assoc ..).symm
  simp only [nearest, Nat.mul_div_mul_right _ _ positive, Nat.mul_mod_mul_right, double,
    Nat.mul_lt_mul_right positive, Nat.mul_left_inj positive.ne']

/-- The place of the double that is nearest to a number of the least units. -/
def scaled (a : Nat) : Nat := (a.log2 - 52) * 2 ^ 52 + nearest a (2 ^ (a.log2 - 52))

/-- Rounding to 53 bits gives 53 bits, or the first number with more. -/
theorem nearest_log2 (full : 2 ^ 52 ≤ a) :
    2 ^ 52 ≤ nearest a (2 ^ (a.log2 - 52)) ∧ nearest a (2 ^ (a.log2 - 52)) ≤ 2 ^ 53 := by
  have other : a ≠ 0 := by omega
  have least : 52 ≤ a.log2 := (Nat.le_log2 other).2 full
  have unit : 0 < 2 ^ (a.log2 - 52) := Nat.two_pow_pos _
  have low : 2 ^ 52 ≤ a / 2 ^ (a.log2 - 52) := by
    rw [Nat.le_div_iff_mul_le unit, ← Nat.pow_add, Nat.add_sub_cancel' least]
    exact Nat.log2_self_le other
  have high : a / 2 ^ (a.log2 - 52) < 2 ^ 53 := by
    rw [Nat.div_lt_iff_lt_mul unit, ← Nat.pow_add, show 53 + (a.log2 - 52) = a.log2 + 1 by omega]
    exact Nat.lt_log2_self
  have near := nearest_bounds a (2 ^ (a.log2 - 52))
  omega

theorem scaled_eq_self (small : a < 2 ^ 53) : scaled a = a := by
  have log : a.log2 - 52 = 0 := by
    by_cases zero : a = 0
    · rw [zero]
      rfl
    · have := (Nat.log2_lt zero).2 small
      omega
  simp [scaled, log, nearest, Nat.mod_one]

theorem scaled_mono (less : a ≤ b) : scaled a ≤ scaled b := by
  by_cases small : b < 2 ^ 53
  · rwa [scaled_eq_self small, scaled_eq_self (less.trans_lt small)]
  have full : 2 ^ 52 ≤ b := by omega
  have logs : a.log2 ≤ b.log2 := by
    rw [Nat.log2_eq_log_two, Nat.log2_eq_log_two]
    exact Nat.log_mono_right less
  have large := nearest_log2 full
  by_cases small' : a < 2 ^ 53
  · have log : 53 ≤ b.log2 := (Nat.le_log2 (by omega)).2 (by omega)
    rw [scaled_eq_self small', scaled]
    omega
  have large' := nearest_log2 (show 2 ^ 52 ≤ a by omega)
  have log : 53 ≤ a.log2 := (Nat.le_log2 (by omega)).2 (by omega)
  rcases Nat.lt_or_eq_of_le logs with apart | same
  · unfold scaled
    omega
  · unfold scaled
    rw [same]
    exact Nat.add_le_add_left (nearest_mono less) _

theorem log2_mul_two_pow (other : a ≠ 0) (shift : Nat) : (a * 2 ^ shift).log2 = a.log2 + shift := by
  induction shift with
  | zero => rw [Nat.pow_zero, Nat.mul_one, Nat.add_zero]
  | succ shift ih =>
    have product : a * 2 ^ shift ≠ 0 := Nat.mul_ne_zero other (Nat.two_pow_pos shift).ne'
    rw [Nat.pow_succ, ← Nat.mul_assoc, Nat.mul_comm, Nat.log2_two_mul product, ih, Nat.add_assoc]

/-- Twice as many units are one exponent further on. -/
theorem scaled_mul (full : 2 ^ 52 ≤ a) (shift : Nat) :
    scaled (a * 2 ^ shift) = shift * 2 ^ 52 + scaled a := by
  have other : a ≠ 0 := by omega
  have least : 52 ≤ a.log2 := (Nat.le_log2 other).2 full
  have log : (a * 2 ^ shift).log2 - 52 = a.log2 - 52 + shift := by
    rw [log2_mul_two_pow other]
    omega
  rw [scaled, log, Nat.pow_add, nearest_mul_right (Nat.two_pow_pos _), scaled]
  omega

/-! ### Rounding -/

/-- The bits that a shift takes away tell whether they are at least half a unit, and whether they
are anything but none and the half. -/
theorem shift_eq (m shift : Nat) : (⟨m, false, false⟩ : ExtendedMantissa) >>> shift =
    ⟨m / 2 ^ shift, decide (2 ^ shift ≤ 2 * (m % 2 ^ shift)),
      decide (m % 2 ^ shift ≠ 0 ∧ 2 * (m % 2 ^ shift) ≠ 2 ^ shift)⟩ := by
  induction shift with
  | zero => simp [HShiftRight.hShiftRight, Nat.repeat, Nat.mod_one]
  | succ shift ih =>
    show ExtendedMantissa.shiftRightOne ((⟨m, false, false⟩ : ExtendedMantissa) >>> shift) = _
    have left := Nat.mod_lt m (Nat.two_pow_pos shift)
    have bit := Nat.mod_two_eq_zero_or_one (m / 2 ^ shift)
    rw [ih, ExtendedMantissa.shiftRightOne, Nat.mod_pow_succ, Nat.pow_succ, Nat.div_div_eq_div_mul]
    generalize 2 ^ shift = unit at *
    generalize m % unit = rest at *
    congr 1 <;> rw [Bool.eq_iff_iff] <;>
      simp only [bne_iff_ne, Bool.or_eq_true, decide_eq_true_eq] <;>
      rcases bit with bit | bit <;> rw [bit] <;> omega

theorem roundedMantissa_shift (m shift : Nat) :
    ((⟨m, false, false⟩ : ExtendedMantissa) >>> shift).roundedMantissa = nearest m (2 ^ shift) := by
  have left := Nat.mod_lt m (Nat.two_pow_pos shift)
  rw [shift_eq, ExtendedMantissa.roundedMantissa]
  unfold nearest
  dsimp only
  generalize 2 ^ shift = unit at *
  generalize m % unit = rest at *
  cases half : decide (unit ≤ 2 * rest) <;> cases part : decide (rest ≠ 0 ∧ 2 * rest ≠ unit) <;>
    simp only [decide_eq_true_eq, decide_eq_false_iff_not, ExtendedMantissa.accuracy,
      Float.Model.UnpackedFloat.Accuracy.roundToNearestEven] at half part ⊢ <;>
    split_ifs <;> omega

theorem shiftToTargetExponent_eq (least : -1074 ≤ e) :
    shiftToTargetExponent Format.binary64 m e .exact =
      ((⟨m, false, false⟩ : ExtendedMantissa) >>> (m.log2 - 52), e + (m.log2 - 52 : Nat)) := by
  have amount : (Format.binary64.targetExponent (Float.Model.totalExponent m e) - e).toNat =
      m.log2 - 52 := by
    simp only [Format.targetExponent, Float.Model.totalExponent, Format.mantissaBits,
      Format.minExponent]
    omega
  simp only [shiftToTargetExponent, Float.Model.UnpackedFloat.shiftToExponent, amount,
    ExtendedMantissa.ofMantissaAndAccuracy]

/-- Where a mantissa of 53 bits has its place on the scale of its exponent. -/
theorem shiftToTargetExponent_normal (full : 2 ^ 52 ≤ m) (small : m < 2 ^ 53) (least : -1074 ≤ e) :
    shiftToTargetExponent Format.binary64 m e .exact = (⟨m, false, false⟩, e) := by
  have log : m.log2 = 52 := (Nat.log2_eq_iff (by omega)).2 ⟨full, small⟩
  rw [shiftToTargetExponent_eq least, log]
  exact Prod.ext rfl (Int.add_zero e)

theorem shiftToTargetExponent_carry (least : -1074 ≤ e) :
    shiftToTargetExponent Format.binary64 (2 ^ 53) e .exact = (⟨2 ^ 52, false, false⟩, e + 1) :=
  shiftToTargetExponent_eq least

theorem round_normal (full : 2 ^ 52 ≤ m) (small : m < 2 ^ 53) (least : -1074 ≤ e) :
    roundWithAccuracy Format.binary64 sign m e .exact = .finite sign m e (by omega) := by
  have other : m ≠ 0 := by omega
  have same : (⟨m, false, false⟩ : ExtendedMantissa).roundedMantissa = m := rfl
  simp only [roundWithAccuracy, shiftToTargetExponent_normal full small least, same, other,
    dite_false]

/-- A mantissa with more bits is rounded to 53 of them. -/
theorem round_spec (sign : UnpackedFloat.Sign) (full : 2 ^ 52 ≤ m) (least : -1074 ≤ e)
    (most : e + m.log2 ≤ 1022) :
    IsCanonical (roundWithAccuracy Format.binary64 sign m e .exact) ∧
      position (roundWithAccuracy Format.binary64 sign m e .exact) =
        sign.apply ((e + 1074) * 2 ^ 52 + scaled m) := by
  have log : 52 ≤ m.log2 := (Nat.le_log2 (by omega)).2 full
  have rounded : scaled m = (m.log2 - 52) * 2 ^ 52 + nearest m (2 ^ (m.log2 - 52)) := rfl
  obtain ⟨low, high⟩ := nearest_log2 full
  have least' : -1074 ≤ e + (m.log2 - 52 : Nat) := by omega
  rcases Nat.lt_or_eq_of_le high with small | carry
  · have other : nearest m (2 ^ (m.log2 - 52)) ≠ 0 := by omega
    simp only [roundWithAccuracy, shiftToTargetExponent_eq least, roundedMantissa_shift,
      shiftToTargetExponent_normal low small least', other, dite_false]
    refine ⟨⟨small, by omega, by omega, .inl low⟩, congrArg sign.apply ?_⟩
    omega
  · simp only [roundWithAccuracy, shiftToTargetExponent_eq least, roundedMantissa_shift, carry,
      shiftToTargetExponent_carry least']
    refine ⟨⟨by decide, by omega, by omega, .inl (by decide)⟩, congrArg sign.apply ?_⟩
    omega

/-! ### Packing -/

theorem unpack_pack (canonical : IsCanonical u) :
    UnpackedFloat.unpack Format.binary64 (UnpackedFloat.pack Format.binary64 u) = u := by
  cases u with
  | notANumber => exact canonical.elim
  | infinity sign => cases sign <;> rfl
  | zero sign => cases sign <;> rfl
  | finite sign m e positive =>
    obtain ⟨small, least, most, full⟩ := canonical
    rw [pack_finite, if_neg (by omega)]
    split_ifs with normal
    · have full : 2 ^ 52 ≤ m := by
        rw [← Nat.le_log2 positive.ne']
        omega
      have exponent : (BitVec.ofNat 11 (e + 1075).toNat).toNat = (e + 1075).toNat := by
        rw [BitVec.toNat_ofNat]
        omega
      have notTop : BitVec.ofNat 11 (e + 1075).toNat ≠ -1#11 := fun same => by
        have : (BitVec.ofNat 11 (e + 1075).toNat).toNat = 2047 := congrArg BitVec.toNat same
        omega
      have notLeast : BitVec.ofNat 11 (e + 1075).toNat ≠ 0#11 := fun same => by
        have : (BitVec.ofNat 11 (e + 1075).toNat).toNat = 0 := congrArg BitVec.toNat same
        omega
      rw [unpack_eq]
      simp only [exponentOf_components, mantissaOf_components, signOf_components, notTop, notLeast,
        if_false, toNat_leadingOne, exponent, BitVec.toNat_ofNat, UnpackedFloat.finite.injEq,
        true_and]
      omega
    · have few : m < 2 ^ 52 := by
        rw [← Nat.log2_lt positive.ne']
        have : m.log2 < 53 := (Nat.log2_lt positive.ne').2 small
        omega
      obtain rfl : e = -1074 := full.resolve_left (by omega)
      have mantissa : (BitVec.ofNat 52 m).toNat = m := by
        rw [BitVec.toNat_ofNat]
        omega
      have other : BitVec.ofNat 52 m ≠ 0#52 := fun same => by
        have : (BitVec.ofNat 52 m).toNat = 0 := congrArg BitVec.toNat same
        omega
      rw [unpack_eq, dif_neg (by rwa [mantissaOf_components])]
      simp only [exponentOf_components, mantissaOf_components, signOf_components, mantissa]
      rfl

/-! ### Conversion -/

theorem ordinal_pack (canonical : IsCanonical u) :
    isNaN (.ofModel (.pack u)) = false ∧ ordinal (.ofModel (.pack u)) = position u := by
  have same : (Float.ofModel (.pack u)).toModel.unpack = u := unpack_pack canonical
  rw [isNaN_eq_false, ordinal, same]
  exact ⟨canonical, rfl⟩

/-- The place of the double that a whole number becomes. -/
def wholePosition (n : Nat) : Int := if n = 0 then 0 else 1021 * 2 ^ 52 + scaled (n * 2 ^ 53)

theorem ofNat_large (large : 2 ^ 53 ≤ n) : Float.ofNat n = .ofModel (.pack
    (roundWithAccuracy Format.binary64 .positive (n * 2 ^ 53) (-53) .exact)) := by
  have other : n ≠ 0 := by omega
  have inRange : ¬((0 : Int) < -((2 ^ 11 : Int) + n.log2)) := by omega
  show Float.ofScientific n false 0 = _
  rw [Float.ofScientific, dif_neg (by omega)]
  show Float.ofModel (Float.Model.pack (UnpackedFloat.ofScientific Format.binary64 n 0)) = _
  rw [UnpackedFloat.ofScientific, dif_neg other, if_neg (by decide), if_neg inRange,
    if_pos (by decide)]
  show Float.ofModel (.pack
    (roundWithAccuracy Format.binary64 .positive (n <<< 53 * 1) (-53) .exact)) = _
  rw [Nat.shiftLeft_eq, Nat.mul_one]

/-- With as many zeros behind it as there is room for, a whole number has 53 bits. -/
theorem log2_filled (other : n ≠ 0) (small : n < 2 ^ 53) : (n * 2 ^ (52 - n.log2)).log2 = 52 := by
  have log : n.log2 < 53 := (Nat.log2_lt other).2 small
  rw [log2_mul_two_pow other]
  omega

theorem filled_bounds (other : n ≠ 0) (small : n < 2 ^ 53) :
    2 ^ 52 ≤ n * 2 ^ (52 - n.log2) ∧ n * 2 ^ (52 - n.log2) < 2 ^ 53 :=
  (Nat.log2_eq_iff (Nat.mul_ne_zero other (Nat.two_pow_pos _).ne')).1 (log2_filled other small)

theorem unpack_ofUInt64 {word : UInt64} (other : word.toNat ≠ 0) (small : word.toNat < 2 ^ 53) :
    word.toFloat.toModel.unpack = .finite .positive (word.toNat * 2 ^ (52 - word.toNat.log2))
      (word.toNat.log2 - 52) (Nat.mul_pos (Nat.pos_of_ne_zero other) (Nat.two_pow_pos _)) := by
  obtain ⟨full, few⟩ := filled_bounds other small
  have log : word.toNat.log2 < 53 := (Nat.log2_lt other).2 small
  have sign : compare (word.toNat : Int) 0 = .gt := compare_gt_iff_gt.2 (by omega)
  have target : Format.binary64.targetExponent (Float.Model.totalExponent word.toNat 0) =
      -(52 - word.toNat.log2 : Nat) := by
    simp only [Format.targetExponent, Float.Model.totalExponent, Format.mantissaBits,
      Format.minExponent]
    omega
  have room : (0 - -((52 - word.toNat.log2 : Nat) : Int)).toNat = 52 - word.toNat.log2 := by omega
  show UnpackedFloat.unpack _
    (UnpackedFloat.pack _ (UnpackedFloat.ofUInt64 Format.binary64 word)) = _
  simp only [UnpackedFloat.ofUInt64, UnpackedFloat.ofNat, UnpackedFloat.ofInt,
    UnpackedFloat.normalize, sign, UnpackedFloat.round, Int.toNat_natCast, target,
    UnpackedFloat.decreaseExponent, room, Nat.shiftLeft_eq]
  rw [round_normal full few (by omega),
    unpack_pack (show IsCanonical (.finite ..) from ⟨few, by omega, by omega, .inl full⟩),
    UnpackedFloat.finite.injEq]
  exact ⟨rfl, rfl, by omega⟩

/-- The conversion of a small number multiplies it by one. -/
theorem ofNat_small (other : n ≠ 0) (small : n < 2 ^ 53) : Float.ofNat n = .ofModel (.pack
    (roundWithAccuracy Format.binary64 .positive (n * 2 ^ (52 - n.log2) * 2 ^ 52)
      (n.log2 - 52 + -52) .exact)) := by
  have whole : n.toUInt64.toNat = n := by
    show (UInt64.ofNat n).toNat = n
    rw [UInt64.toNat_ofNat']
    omega
  have one : Float.exactlyRepresentablePowersOfTen[0].toModel.unpack =
      .finite .positive (2 ^ 52) (-52) (by decide) := rfl
  show Float.ofScientific n false 0 = _
  rw [Float.ofScientific, dif_pos ⟨small, by decide⟩]
  show Float.ofModel (.pack (UnpackedFloat.mul Format.binary64 n.toUInt64.toFloat.toModel.unpack
    Float.exactlyRepresentablePowersOfTen[0].toModel.unpack)) = _
  rw [one, unpack_ofUInt64 (by rwa [whole]) (by rwa [whole])]
  simp only [UnpackedFloat.mul, whole]
  rfl

theorem ordinal_ofNat (small : n < 2 ^ 64) :
    isNaN (Float.ofNat n) = false ∧ ordinal (Float.ofNat n) = wholePosition n := by
  by_cases zero : n = 0
  · rw [zero]
    decide
  rw [wholePosition, if_neg zero]
  by_cases few : n < 2 ^ 53
  · obtain ⟨full, -⟩ := filled_bounds zero few
    have log : n.log2 < 53 := (Nat.log2_lt zero).2 few
    have log' : (n * 2 ^ (52 - n.log2) * 2 ^ 52).log2 = 104 := by
      rw [log2_mul_two_pow (by omega), log2_filled zero few]
    obtain ⟨canonical, found⟩ := round_spec .positive (m := n * 2 ^ (52 - n.log2) * 2 ^ 52)
      (e := n.log2 - 52 + -52) (by omega) (by omega) (by omega)
    obtain ⟨number, place⟩ := ordinal_pack canonical
    have units : n * 2 ^ 53 = n * 2 ^ (52 - n.log2) * 2 ^ (n.log2 + 1) := by
      rw [Nat.mul_assoc, ← Nat.pow_add]
      congr 2
      omega
    rw [ofNat_small zero few, place, found, units, scaled_mul full, scaled_mul full]
    refine ⟨number, ?_⟩
    simp only [UnpackedFloat.Sign.apply]
    omega
  · have log : n.log2 < 64 := (Nat.log2_lt zero).2 small
    have log' : (n * 2 ^ 53).log2 = n.log2 + 53 := log2_mul_two_pow zero 53
    obtain ⟨canonical, found⟩ := round_spec .positive (m := n * 2 ^ 53) (e := -53)
      (by omega) (by omega) (by omega)
    obtain ⟨number, place⟩ := ordinal_pack canonical
    rw [ofNat_large (Nat.le_of_not_lt few), place, found]
    exact ⟨number, rfl⟩

theorem wholePosition_mono (less : m ≤ n) : wholePosition m ≤ wholePosition n := by
  have places := scaled_mono (Nat.mul_le_mul_right (2 ^ 53) less)
  unfold wholePosition
  split_ifs <;> omega

theorem position_neg (canonical : IsCanonical u) :
    IsCanonical u.neg ∧ position u.neg = -position u := by
  cases u with
  | notANumber => exact canonical.elim
  | infinity sign => cases sign <;> exact ⟨trivial, rfl⟩
  | zero sign => exact ⟨trivial, rfl⟩
  | finite sign m e positive =>
    refine ⟨canonical, ?_⟩
    cases sign with
    | positive => rfl
    | negative => exact (Int.neg_neg _).symm

theorem ordinal_neg {x : Float} (number : isNaN x = false) :
    isNaN (-x) = false ∧ ordinal (-x) = -ordinal x := by
  obtain ⟨canonical, opposite⟩ := position_neg (isNaN_eq_false.1 number)
  obtain ⟨number', place⟩ := ordinal_pack canonical
  exact ⟨number', place.trans opposite⟩

theorem ordinal_ofInt {i : Int} (least : -2 ^ 63 ≤ i) (most : i < 2 ^ 63) :
    isNaN (Float.ofInt i) = false ∧ ordinal (Float.ofInt i) =
      if 0 ≤ i then wholePosition i.natAbs else -wholePosition i.natAbs := by
  cases i with
  | ofNat n =>
    have small : (n : Int) < 2 ^ 63 := most
    rw [if_pos (by exact Int.natCast_nonneg n)]
    exact ordinal_ofNat (by omega)
  | negSucc n =>
    have small : n + 1 < 2 ^ 64 := by omega
    obtain ⟨number, place⟩ := ordinal_ofNat small
    obtain ⟨number', opposite⟩ := ordinal_neg number
    rw [if_neg (by omega), Int.natAbs_negSucc, Nat.succ_eq_add_one, ← place, ← opposite]
    exact ⟨number', rfl⟩

/-- Of two whole numbers the larger one never becomes the smaller double. -/
theorem ordinal_ofInt_mono {i j : Int} (least : -2 ^ 63 ≤ i) (less : i ≤ j) (most : j < 2 ^ 63) :
    ordinal (Float.ofInt i) ≤ ordinal (Float.ofInt j) := by
  have positive (n : Nat) : 0 ≤ wholePosition n := by
    have mono := wholePosition_mono (Nat.zero_le n)
    rwa [wholePosition, if_pos rfl] at mono
  have first := positive i.natAbs
  have second := positive j.natAbs
  rw [(ordinal_ofInt least (by omega)).2, (ordinal_ofInt (by omega) most).2]
  split_ifs
  · exact wholePosition_mono (by omega)
  · omega
  · omega
  · exact Int.neg_le_neg (wholePosition_mono (by omega))

end EventQuery.Number.Binary64
