import EventQuery.Constant.Operations
import EventQuery.Proofs.DoubleBits

/-!
The order of doubles. Numbers are in the order of their bits, where those with a sign count
downwards from zero. Comparing two doubles is comparing these positions, and only a value that is
no number has none.
-/
namespace EventQuery.Number.Binary64

open Float.Model (Format UnpackedFloat)

/-- What the bits of a number unpack to: a mantissa has 53 bits, all of them in use unless the
exponent is the least. -/
def IsCanonical : UnpackedFloat → Prop
  | .notANumber => False
  | .infinity _ | .zero _ => True
  | .finite _ mantissa exponent _ => mantissa < 2 ^ 53 ∧ -1074 ≤ exponent ∧ exponent ≤ 971 ∧
      (2 ^ 52 ≤ mantissa ∨ exponent = -1074)

/-- The place of a number among all of them, counted from zero. -/
def position : UnpackedFloat → Int
  | .notANumber | .zero _ => 0
  | .infinity sign => sign.apply (2047 * 2 ^ 52)
  | .finite sign mantissa exponent _ => sign.apply ((exponent + 1074) * 2 ^ 52 + mantissa)

/-- The place of a double among all of them. -/
def ordinal (x : Float) : Int := position x.toModel.unpack

variable {x y : Float} {u v : UnpackedFloat}

/-! ### Unpacked numbers -/

theorem isCanonical_unpack (bits : BitVec 64) :
    IsCanonical (.unpack Format.binary64 bits) ↔
      UnpackedFloat.unpack Format.binary64 bits ≠ .notANumber := by
  have m := (mantissaOf bits).isLt
  have e := (exponentOf bits).isLt
  rw [unpack_eq]
  split_ifs with top zero least zero
  · simp [IsCanonical]
  · simp [IsCanonical]
  · simp [IsCanonical]
  · have none : (exponentOf bits).toNat = 0 := by
      rw [least]
      rfl
    simp only [IsCanonical, ne_eq, reduceCtorEq, not_false_eq_true, iff_true]
    omega
  · have notTop : (exponentOf bits).toNat ≠ 2047 := fun same => top (BitVec.eq_of_toNat_eq same)
    have notLeast : (exponentOf bits).toNat ≠ 0 := fun same => least (BitVec.eq_of_toNat_eq same)
    simp only [IsCanonical, ne_eq, reduceCtorEq, not_false_eq_true, iff_true, toNat_leadingOne]
    omega

theorem isNaN_eq_true : isNaN x = true ↔ x.toModel.unpack = .notANumber := by
  rw [isNaN, beq_iff_eq, kind_eq_nan]
  show _ ↔ UnpackedFloat.unpack Format.binary64 x.toBits.toBitVec = .notANumber
  rw [unpack_eq]
  split_ifs <;> simp_all

theorem isNaN_eq_false : isNaN x = false ↔ IsCanonical x.toModel.unpack := by
  rw [← Bool.not_eq_true, isNaN_eq_true]
  exact (isCanonical_unpack x.toBits.toBitVec).symm

/-- Numbers with the larger exponent have their whole mantissa in use, so they are the larger
ones. -/
theorem compare_exponents {m n : Nat} {d e : Int} (small : m < 2 ^ 53) (least : -1074 ≤ d)
    (small' : n < 2 ^ 53) (least' : -1074 ≤ e) (full : 2 ^ 52 ≤ m ∨ d = -1074)
    (full' : 2 ^ 52 ≤ n ∨ e = -1074) :
    (compare d e).then (compare m n) =
      compare ((d + 1074) * 2 ^ 52 + m : Int) ((e + 1074) * 2 ^ 52 + n) := by
  rcases lt_trichotomy d e with less | rfl | more
  · have below : (d + 1074) * 2 ^ 52 + m < (e + 1074) * 2 ^ 52 + n := by omega
    rw [compare_lt_iff_lt.2 less, compare_lt_iff_lt.2 below]
    rfl
  · rw [compare_eq_iff_eq.2 (rfl : d = d), Ordering.eq_then]
    rcases lt_trichotomy m n with less | rfl | more
    · rw [compare_lt_iff_lt.2 less, compare_lt_iff_lt.2 (by omega)]
    · rw [compare_eq_iff_eq.2 (rfl : m = m), compare_eq_iff_eq.2 rfl]
    · rw [compare_gt_iff_gt.2 more, compare_gt_iff_gt.2 (by omega)]
  · have above : (e + 1074) * 2 ^ 52 + n < (d + 1074) * 2 ^ 52 + m := by omega
    rw [compare_gt_iff_gt.2 more, compare_gt_iff_gt.2 above]
    rfl

theorem swap_compare (a b : Int) : (compare a b).swap = compare (-a) (-b) := by
  rcases lt_trichotomy a b with less | rfl | more
  · rw [compare_lt_iff_lt.2 less, compare_gt_iff_gt.2 (Int.neg_lt_neg less)]
    rfl
  · rw [compare_eq_iff_eq.2 (rfl : a = a), compare_eq_iff_eq.2 rfl]
    rfl
  · rw [compare_gt_iff_gt.2 more, compare_lt_iff_lt.2 (Int.neg_lt_neg more)]
    rfl

theorem compare_eq (canonical : IsCanonical u) (canonical' : IsCanonical v) :
    u.compare v = some (compare (position u) (position v)) := by
  have lt {a b : Int} (less : a < b) : some .lt = some (compare a b) :=
    congrArg some (compare_lt_iff_lt.2 less).symm
  have gt {a b : Int} (more : b < a) : some .gt = some (compare a b) :=
    congrArg some (compare_gt_iff_gt.2 more).symm
  have eq {a : Int} : some .eq = some (compare a a) :=
    congrArg some (compare_eq_iff_eq.2 rfl).symm
  cases u with
  | notANumber => exact canonical.elim
  | infinity sign =>
    cases v with
    | notANumber => exact canonical'.elim
    | infinity sign' =>
      cases sign <;> cases sign' <;> first | exact eq | exact lt (by decide) | exact gt (by decide)
    | zero =>
      cases sign
      · exact lt (b := 0) (by decide)
      · exact gt (b := 0) (by decide)
    | finite sign' n e positive' =>
      obtain ⟨small', least', most', -⟩ := canonical'
      cases sign <;> cases sign' <;>
        simp only [UnpackedFloat.compare, position, UnpackedFloat.Sign.apply] <;>
        first | exact lt (by omega) | exact gt (by omega)
  | zero =>
    cases v with
    | notANumber => exact canonical'.elim
    | infinity sign' =>
      cases sign'
      · exact gt (a := 0) (by decide)
      · exact lt (a := 0) (by decide)
    | zero => exact eq
    | finite sign' n e positive' =>
      obtain ⟨-, least', -, -⟩ := canonical'
      cases sign' <;> simp only [UnpackedFloat.compare, position, UnpackedFloat.Sign.apply] <;>
        first | exact lt (by omega) | exact gt (by omega)
  | finite sign m d positive =>
    obtain ⟨small, least, most, full⟩ := canonical
    cases v with
    | notANumber => exact canonical'.elim
    | infinity sign' =>
      cases sign <;> cases sign' <;>
        simp only [UnpackedFloat.compare, position, UnpackedFloat.Sign.apply] <;>
        first | exact lt (by omega) | exact gt (by omega)
    | zero =>
      cases sign <;> simp only [UnpackedFloat.compare, position, UnpackedFloat.Sign.apply] <;>
        first | exact lt (by omega) | exact gt (by omega)
    | finite sign' n e positive' =>
      obtain ⟨small', least', most', full'⟩ := canonical'
      have magnitudes := compare_exponents small least small' least' full full'
      cases sign <;> cases sign' <;>
        simp only [UnpackedFloat.compare, position, UnpackedFloat.Sign.apply]
      · rw [magnitudes, swap_compare]
      · exact lt (by omega)
      · exact gt (by omega)
      · rw [magnitudes]

/-! ### Doubles -/

theorem lt_iff_compare : x < y ↔ x.toModel.unpack.compare y.toModel.unpack = some .lt := by
  show decide (x.toModel < y.toModel) = true ↔ _
  rw [decide_eq_true_iff]
  exact beq_iff_eq

theorem beq_iff_compare :
    (x == y) = true ↔ x.toModel.unpack.compare y.toModel.unpack = some .eq := by
  show (x.toModel.unpack.compare y.toModel.unpack == some .eq) = true ↔ _
  rw [beq_iff_eq]

theorem compareFloat_eq (number : isNaN x = false) (number' : isNaN y = false) :
    Constant.compareFloat x y = some (compare (ordinal x) (ordinal y)) := by
  rw [isNaN_eq_false] at number number'
  simp only [Constant.compareFloat, lt_iff_compare, beq_iff_compare, compare_eq number number',
    compare_eq number' number, Option.some.injEq, compare_lt_iff_lt, compare_eq_iff_eq]
  show _ = some (compare (position _) (position _))
  rcases lt_trichotomy (position x.toModel.unpack) (position y.toModel.unpack)
    with less | same | more
  · rw [if_pos less, compare_lt_iff_lt.2 less]
  · rw [if_neg same.not_lt, if_pos same, compare_eq_iff_eq.2 same]
  · rw [if_neg more.not_gt, if_neg more.ne', if_pos more, compare_gt_iff_gt.2 more]

/-- A value that is no number is not in the order. -/
theorem compareFloat_eq_none :
    Constant.compareFloat x y = none ↔ isNaN x = true ∨ isNaN y = true := by
  constructor
  · intro unordered
    by_contra numbers
    rw [not_or, Bool.not_eq_true, Bool.not_eq_true] at numbers
    rw [compareFloat_eq numbers.1 numbers.2] at unordered
    cases unordered
  · intro absent
    have unordered : x.toModel.unpack.compare y.toModel.unpack = none ∧
        y.toModel.unpack.compare x.toModel.unpack = none := by
      rcases absent with absent | absent <;> rw [isNaN_eq_true] at absent <;> rw [absent]
      · exact ⟨rfl, by cases y.toModel.unpack <;> rfl⟩
      · exact ⟨by cases x.toModel.unpack <;> rfl, rfl⟩
    simp [Constant.compareFloat, lt_iff_compare, beq_iff_compare, unordered]

end EventQuery.Number.Binary64
