import EventQuery.Proofs.Outcome
import EventQuery.Statement.Validate

/-!
Counts and durations, the numbers that have to be known at compile time. Folding puts a
constant in their place that is integral and not below the least count allowed, and folding
that constant once more leaves it as it is.
-/
namespace EventQuery

open Outcome

/-- An integral constant whose number is at least `least`. -/
structure Constant.IsCount (least : Int) (constant : Constant) : Prop where
  integral : constant.type.isIntegral = true
  bounded : ∃ count, constant.integral? = some count ∧ least ≤ count

namespace ValueExpr

/-- A literal count. -/
def IsCount (least : Int) (node : ValueExpr) : Prop :=
  ∃ span constant, node = .constant span constant ∧ constant.IsCount least

/-- A literal number of milliseconds, of type `LONG`. -/
def IsDuration (node : ValueExpr) : Prop :=
  ∃ span millis, node = .constant span (.long millis) ∧ 0 ≤ millis.toInt

end ValueExpr

namespace Validate

variable {span : Span} {node folded : ValueExpr} {value : Constant} {what : String}
  {least count : Int}

theorem requiredConstant_eq_ok :
    requiredConstant node what = .ok value ↔ node.isConstant = true ∧ node.reduce = .ok value := by
  unfold requiredConstant
  split
  case isTrue known => simp [known]
  case isFalse unknown => simp [unknown]

theorem requiredCount_eq_ok :
    requiredCount span value what least = .ok count ↔
      value.type.isIntegral = true ∧ value.integral? = some count ∧ least ≤ count := by
  constructor
  · intro found
    unfold requiredCount at found
    dsimp only at found
    split at found
    case h_1 number known =>
      split at known
      case isTrue integral =>
        split at found
        case isTrue => cases found
        case isFalse enough =>
          obtain rfl := pure_eq_ok.1 found
          exact ⟨integral, known, Int.not_lt.1 enough⟩
      case isFalse => cases known
    case h_2 => cases found
  · rintro ⟨integral, number, enough⟩
    simp [requiredCount, integral, number, Int.not_lt.2 enough]

theorem foldCount_eq_ok :
    foldCount node what least = .ok (folded, count) ↔
      ∃ value, node.isConstant = true ∧ node.reduce = .ok value ∧
        value.type.isIntegral = true ∧ value.integral? = some count ∧ least ≤ count ∧
        folded = .constant node.span value := by
  simp only [foldCount, bind_eq_ok, pure_eq_ok, Stopped.check_eq_ok, Prod.mk.injEq,
    requiredConstant_eq_ok, requiredCount_eq_ok]
  constructor
  · rintro ⟨value, ⟨known, found⟩, _, ⟨integral, number, enough⟩, rfl, rfl⟩
    exact ⟨value, known, found, integral, number, enough, rfl⟩
  · rintro ⟨value, known, found, integral, number, enough, rfl⟩
    exact ⟨value, ⟨known, found⟩, count, ⟨integral, number, enough⟩, rfl, rfl⟩

/-- What is folded to a count is one. -/
theorem isCount_of_foldCount (found : foldCount node what least = .ok (folded, count)) :
    folded.IsCount least := by
  obtain ⟨value, _, _, integral, number, enough, rfl⟩ := foldCount_eq_ok.1 found
  exact ⟨_, value, rfl, integral, count, number, enough⟩

theorem foldDuration_eq_ok :
    foldDuration node what = .ok folded ↔
      ∃ value count, node.isConstant = true ∧ node.reduce = .ok value ∧
        value.type.isIntegral = true ∧ value.integral? = some count ∧ 0 ≤ count ∧
        folded = .constant node.span (.long (Int64.ofInt count)) := by
  simp only [foldDuration, bind_eq_ok, pure_eq_ok, Prod.exists, foldCount_eq_ok]
  constructor
  · rintro ⟨_, count, ⟨value, known, found, integral, number, enough, rfl⟩, rfl⟩
    exact ⟨value, count, known, found, integral, number, enough, rfl⟩
  · rintro ⟨value, count, known, found, integral, number, enough, rfl⟩
    exact ⟨_, count, ⟨value, known, found, integral, number, enough, rfl⟩, rfl⟩

/-- The number of an integral constant fits a `LONG`. -/
theorem toInt_ofInt_of_integral? (number : value.integral? = some count) :
    (Int64.ofInt count).toInt = count := by
  cases value <;> cases number
  case byte.refl value =>
    have low := value.le_toInt
    have high := value.toInt_lt
    exact Int64.toInt_ofInt_of_le (by omega) (by omega)
  case short.refl value =>
    have low := value.le_toInt
    have high := value.toInt_lt
    exact Int64.toInt_ofInt_of_le (by omega) (by omega)
  case integer.refl value =>
    have low := value.le_toInt
    have high := value.toInt_lt
    exact Int64.toInt_ofInt_of_le (by omega) (by omega)
  case long.refl value => rw [Int64.ofInt_toInt]
  case datetime.refl value => rw [Int64.ofInt_toInt]

theorem isDuration_of_foldDuration (found : foldDuration node what = .ok folded) :
    folded.IsDuration := by
  obtain ⟨value, count, _, _, _, number, enough, rfl⟩ := foldDuration_eq_ok.1 found
  exact ⟨_, _, rfl, by rwa [toInt_ofInt_of_integral? number]⟩

/-- A duration is folded to itself. -/
theorem foldDuration_of_isDuration (duration : node.IsDuration) :
    foldDuration node what = .ok node := by
  obtain ⟨span, millis, rfl, enough⟩ := duration
  refine foldDuration_eq_ok.2 ⟨.long millis, millis.toInt, rfl, rfl, rfl, rfl, enough, ?_⟩
  rw [Int64.ofInt_toInt]
  rfl

end Validate

namespace ValueExpr

/-- The second value is the count that the first one is folded to. -/
def FoldsToCount (least : Int) (node node' : ValueExpr) : Prop :=
  ∃ what count, Validate.foldCount node what least = .ok (node', count)

/-- The second value is the duration that the first one is folded to. -/
def FoldsToDuration (node node' : ValueExpr) : Prop :=
  ∃ what, Validate.foldDuration node what = .ok node'

variable {node node' : ValueExpr}

theorem FoldsToCount.isCount {least : Int} (folds : FoldsToCount least node node') :
    node'.IsCount least := by
  obtain ⟨what, count, folds⟩ := folds
  exact Validate.isCount_of_foldCount folds

theorem FoldsToDuration.isDuration (folds : FoldsToDuration node node') : node'.IsDuration := by
  obtain ⟨what, folds⟩ := folds
  exact Validate.isDuration_of_foldDuration folds

end ValueExpr

end EventQuery
