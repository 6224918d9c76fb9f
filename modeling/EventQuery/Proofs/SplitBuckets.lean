import EventQuery.Calendar.Places
import EventQuery.Proofs.ConstantOrder
import EventQuery.Proofs.KnownTypes

/-!
The buckets of `split`. Only neighbouring boundaries are checked for their order, and boundaries and
values may be numbers of different types, each pair of them compared in its own common type. The
number of boundaries that are not above a value is its position among them all the same.
-/
namespace EventQuery

open Outcome Constant

/-! ### Sorted boundaries -/

/-- In a list that keeps a property downwards, the parts with the property are the first ones. -/
theorem eq_true_iff_lt_countP {α : Type} {holds : α → Bool} {parts : List α}
    (closed : parts.IsChain fun a b => holds b = true → holds a = true) {index : Nat} {part : α}
    (found : parts[index]? = some part) :
    holds part = true ↔ index < parts.countP holds := by
  induction parts generalizing index part with
  | nil => cases found
  | cons first rest ih =>
    have inRest := closed.tail
    by_cases holdsFirst : holds first = true
    · rw [List.countP_cons_of_pos holdsFirst]
      cases index with
      | zero =>
        obtain rfl := Option.some.inj found
        simpa using holdsFirst
      | succ index =>
        rw [ih inRest found]
        omega
    · -- The next part does not have the property either, so no later one is counted.
      have none : rest.countP holds = 0 := by
        cases rest with
        | nil => rfl
        | cons second rest =>
          have counted := ih inRest (show (second :: rest)[0]? = some second from rfl)
          have notSecond := mt (List.isChain_cons_cons.1 closed).1 holdsFirst
          simpa [notSecond] using counted
      rw [List.countP_cons_of_neg holdsFirst, none]
      cases index with
      | zero =>
        obtain rfl := Option.some.inj found
        simpa using holdsFirst
      | succ index =>
        rw [ih inRest found, none]
        omega

namespace Constant

/-- Every constant is below the next one. -/
def Ascending (boundaries : List Constant) : Prop :=
  boundaries.IsChain fun a b => compareBy .lt a b = .ok true

/-- Whether a number or an instant is at most another. -/
def isAtMost (value boundary : Constant) : Bool :=
  boundary.amount?.any fun p => value.amount?.any fun q => decide (p.AtMost q)

/-- Boundaries in ascending order that can be compared with a number or an instant. -/
structure Bounds (boundaries : List Constant) (value : Constant) : Prop where
  ascending : Ascending boundaries
  several : 2 ≤ boundaries.length
  comparable : ∀ boundary ∈ boundaries, ∃ type,
    DataType.common? boundary.type value.type = some type
  isAmount : ∃ q, value.amount? = some q

/-- The bucket of a value is a number of boundaries, namely of the first ones, which are the ones
that are at most the value. -/
structure IsBucket (boundaries : List Constant) (value : Constant) (bucket : Int32) : Prop where
  inside : 0 ≤ bucket.toInt ∧ bucket.toInt ≤ boundaries.length
  separates : ∀ (index : Nat) boundary, boundaries[index]? = some boundary →
    compareBy .lte boundary value = .ok (decide ((index : Int) < bucket.toInt))
  lowest : ∃ boundary ∈ boundaries.head?,
    (bucket.toInt = 0 ↔ compareBy .lt value boundary = .ok true)
  highest : ∃ boundary ∈ boundaries.getLast?,
    (bucket.toInt = boundaries.length ↔ compareBy .lte boundary value = .ok true)

namespace Bounds

variable {boundaries : List Constant} {value boundary : Constant}

/-- Boundaries that are compared with each other are neither `NULL` nor NaN. -/
theorem exists_amount (bounds : Bounds boundaries value) :
    ∀ boundary ∈ boundaries, ∃ p, boundary.amount? = some p := by
  obtain ⟨ascending, several, comparable, q, isAmount⟩ := bounds
  have measured (boundary : Constant) (listed : boundary ∈ boundaries) :
      boundary.type = .null ∨ IsMeasured boundary.type := by
    obtain ⟨type, common⟩ := comparable boundary listed
    exact null_or_isMeasured (isMeasured_of_amount? isAmount) common
  clear comparable
  induction boundaries with
  | nil => cases several
  | cons first rest ih =>
    cases rest with
    | nil => cases several with | step less => cases less
    | cons second rest =>
      obtain ⟨below, others⟩ := List.isChain_cons_cons.1 ascending
      obtain ⟨inFirst, inSecond⟩ := exists_amounts_of_below (measured _ List.mem_cons_self)
        (measured _ (List.mem_cons_of_mem _ List.mem_cons_self)) below
      refine List.forall_mem_cons.2 ⟨inFirst, ?_⟩
      cases rest with
      | nil => exact List.forall_mem_singleton.2 inSecond
      | cons third rest =>
        exact ih others (by simp) fun boundary listed => measured _ (List.mem_cons_of_mem _ listed)

/-- How a boundary compares with the value. -/
theorem compareBy_boundary (bounds : Bounds boundaries value) (listed : boundary ∈ boundaries) :
    compareBy .lte boundary value = .ok (value.isAtMost boundary) ∧
      compareBy .lt value boundary = .ok (!value.isAtMost boundary) := by
  obtain ⟨p, left⟩ := bounds.exists_amount boundary listed
  obtain ⟨q, right⟩ := bounds.isAmount
  obtain ⟨type, common⟩ := bounds.comparable boundary listed
  have atMost := (compareBy_amounts left right common).1
  have below := (compareBy_amounts right left (DataType.common?_comm _ _ ▸ common)).2
  simpa [isAtMost, left, right] using And.intro atMost below

/-- If a boundary is at most the value, so is the one before it. -/
theorem closed (bounds : Bounds boundaries value) :
    boundaries.IsChain fun a b => value.isAtMost b = true → value.isAtMost a = true := by
  refine bounds.ascending.imp_of_mem_imp fun a b listed listed' below => ?_
  obtain ⟨p, left⟩ := bounds.exists_amount a listed
  obtain ⟨p', right⟩ := bounds.exists_amount b listed'
  obtain ⟨q, isAmount⟩ := bounds.isAmount
  simp only [isAtMost, left, right, isAmount, Option.any_some, decide_eq_true_eq]
  exact Amount.atMost_of_below (not_atMost_of_below left right below)

theorem isBucket (bounds : Bounds boundaries value) {bucket : Int32}
    (counts : bucket.toInt = boundaries.countP value.isAtMost) :
    IsBucket boundaries value bucket := by
  have position {index : Nat} {boundary : Constant} (found : boundaries[index]? = some boundary) :
      value.isAtMost boundary = decide ((index : Int) < bucket.toInt) := by
    rw [Bool.eq_iff_iff, decide_eq_true_iff, counts, eq_true_iff_lt_countP bounds.closed found]
    omega
  have several := bounds.several
  have most : boundaries.countP value.isAtMost ≤ boundaries.length := List.countP_le_length
  refine ⟨by omega, fun index boundary found => ?_, ?_, ?_⟩
  · rw [(bounds.compareBy_boundary (List.mem_of_getElem? found)).1, position found]
  · obtain ⟨boundary, found⟩ : ∃ boundary, boundaries[0]? = some boundary :=
      ⟨_, List.getElem?_eq_getElem (by omega)⟩
    refine ⟨boundary, by rwa [List.head?_eq_getElem?], ?_⟩
    rw [(bounds.compareBy_boundary (List.mem_of_getElem? found)).2, position found]
    simp
    omega
  · obtain ⟨boundary, found⟩ : ∃ boundary, boundaries[boundaries.length - 1]? = some boundary :=
      ⟨_, List.getElem?_eq_getElem (by omega)⟩
    refine ⟨boundary, by rwa [List.getLast?_eq_getElem?], ?_⟩
    rw [(bounds.compareBy_boundary (List.mem_of_getElem? found)).1, position found]
    simp
    omega

/-- A larger value of the same type has at least as many boundaries below it. -/
theorem countP_mono {value' : Constant} (bounds : Bounds boundaries value)
    (bounds' : Bounds boundaries value') (sameType : value'.type = value.type)
    (less : compareBy .lte value value' = .ok true) :
    boundaries.countP value.isAtMost ≤ boundaries.countP value'.isAtMost := by
  obtain ⟨q, isAmount⟩ := bounds.isAmount
  obtain ⟨q', isAmount'⟩ := bounds'.isAmount
  obtain ⟨type, common⟩ := exists_common_of_compareBy less
  have atMost : q.AtMost q' := by
    rw [(compareBy_amounts isAmount isAmount' common).1] at less
    exact of_decide_eq_true (Except.ok.inj less)
  refine List.countP_mono_left fun boundary listed => ?_
  obtain ⟨p, left⟩ := bounds.exists_amount boundary listed
  simp only [isAtMost, left, isAmount, isAmount', Option.any_some, decide_eq_true_eq]
  exact fun first => first.trans_like atMost (isLike_of_type_eq isAmount isAmount' sameType)

end Bounds

end Constant

/-! ### Calls -/

namespace Reduce

variable {span : Span} {name : String}

/-- The bucket grows by one with every boundary that is at most the value. -/
theorem splitBucket_eq {value : Constant} {holds : Constant → Bool} {boundaries : List Constant}
    (compares : ∀ boundary ∈ boundaries, compareBy .lte boundary value = .ok (holds boundary))
    (bucket : Int32) : splitBucket span value bucket boundaries =
      .ok (.integer (bucket + Int32.ofNat (boundaries.countP holds))) := by
  induction boundaries generalizing bucket with
  | nil => simp [splitBucket]
  | cons boundary rest ih =>
    obtain ⟨first, others⟩ := List.forall_mem_cons.1 compares
    have continues : splitBucket span value bucket (boundary :: rest) =
        splitBucket span value (if holds boundary then bucket + 1 else bucket) rest := by
      rw [splitBucket, first]
      rfl
    rw [continues, ih others]
    by_cases counted : holds boundary = true
    · rw [List.countP_cons_of_pos counted, if_pos counted, Int32.ofNat_add, Int32.add_assoc,
        Int32.add_comm 1]
      rfl
    · rw [List.countP_cons_of_neg counted, if_neg counted]

/-- The constants of all arguments but the first. -/
theorem forall₂_of_constantTail {first : ValueExpr} {rest : List ValueExpr}
    {values : List Constant}
    (found : Call.constantTail ⟨span, name, ValueExpr.arguments (first :: rest)⟩ = .ok values) :
    List.Forall₂ (fun node value => node.reduce = .ok value) rest values := by
  simp only [Call.constantTail, arguments_eq_map, List.length_map, List.length_cons,
    Nat.add_sub_cancel] at found
  obtain ⟨same, each⟩ := List.forall₂_iff_get.1 (mapM_eq_ok.1 found)
  rw [List.length_range] at same
  refine List.forall₂_iff_get.2 ⟨same, fun index inside inside' => ?_⟩
  have isConstant := each index (by rwa [List.length_range]) inside'
  rw [← arguments_eq_map] at isConstant
  obtain ⟨node, isNode, reduces⟩ := exists_of_constant isConstant
  obtain rfl : rest[index] = node := by simpa [inside] using isNode
  exact reduces

end Reduce

theorem Validate.ascending_of_checkAscending {span : Span} {arguments : List ValueExpr}
    {index : Nat} {boundaries : List Constant}
    (checked : checkAscending span arguments index boundaries = .ok ()) : Ascending boundaries := by
  induction boundaries generalizing index with
  | nil => exact .nil
  | cons first rest ih =>
    cases rest with
    | nil => exact .singleton first
    | cons second rest =>
      simp only [checkAscending, bind_eq_ok, Reduce.orFault_eq_ok] at checked
      obtain ⟨below, compares, checked⟩ := checked
      split at checked
      case isTrue holds => exact .cons_cons (holds ▸ compares) (ih checked)
      case isFalse => cases checked

/-- A call of `split` that is well typed and passes validation, which gives the last node. Its
arguments are known, and the first of them is neither `NULL` nor NaN. -/
structure Splits [ZoneTable] (source first : ValueExpr) (rest : List ValueExpr) (value : Constant)
    (node : ValueExpr) : Prop where
  isCall : ∃ span name state, source = .call span name (first :: rest) (some ⟨.split, state⟩)
  typed : ∃ type, source.type = .ok type
  validates : source.validate = .ok node
  known : ∀ argument ∈ first :: rest, argument.isConstant = true
  foldsTo : first.FoldsTo value
  present : value ≠ .null
  isNumber : ∀ number, value = .double number → Number.Binary64.isNaN number = false

namespace Splits

variable {source first node : ValueExpr} {rest : List ValueExpr} {value : Constant}
  {boundaries : List Constant}

/-- What the static rules state for the arguments. -/
theorem exists_type [ZoneTable] (splits : Splits source first rest value node) :
    ∃ measure, first.type = .ok measure ∧ (measure = .null ∨ IsMeasured measure) ∧
      ∀ argument ∈ rest, ∃ type common, argument.type = .ok type ∧
        DataType.common? measure type = some common := by
  obtain ⟨span, name, state, rfl⟩ := splits.isCall
  obtain ⟨type, typed⟩ := splits.typed
  simp only [ValueExpr.type, Typing.callType, bind_eq_ok, pure_eq_ok] at typed
  obtain ⟨found, expected, _, candidates, -⟩ := typed
  obtain ⟨measure, typed, comparable⟩ := Typing.checkCandidates_cons.1 candidates
  obtain ⟨_, same, typed', accepted⟩ := Typing.expect_eq_ok.1 expected
  obtain rfl := Option.some.inj same
  obtain rfl := Except.ok.inj (typed.symm.trans typed')
  refine ⟨measure, typed, accepted.imp_right fun accepted => ?_, comparable⟩
  simpa [IsMeasured, Typing.isDatetime] using accepted

/-- The value is a number or an instant. -/
theorem isAmount [ZoneTable] (splits : Splits source first rest value node) :
    ∃ q, value.amount? = some q := by
  obtain ⟨measure, typed, stated, -⟩ := splits.exists_type
  have present := mt type_eq_null.1 splits.present
  have resembles := splits.foldsTo.resembles (splits.known first List.mem_cons_self) typed
  have measured : IsMeasured value.type := by
    rcases resembles.eq_or_integral present with same | ⟨-, integral⟩
    · rw [same]
      exact stated.resolve_left (same ▸ present)
    · exact .inl (DataType.isNumeric_of_isIntegral integral)
  refine Option.ne_none_iff_exists'.1 fun none => ?_
  obtain ⟨number, same, notNumber⟩ := (amount?_eq_none measured).1 none
  rw [splits.isNumber number same] at notNumber
  cases notNumber

/-- What a boundary stands for can be compared with the value. -/
theorem comparable [ZoneTable] (splits : Splits source first rest value node) {argument : ValueExpr}
    (listed : argument ∈ rest) {boundary : Constant} (folds : argument.FoldsTo boundary) :
    ∃ type, DataType.common? boundary.type value.type = some type := by
  obtain ⟨measure, typed, -, comparable⟩ := splits.exists_type
  obtain ⟨type, common, typed', meets⟩ := comparable argument listed
  have left := folds.resembles (splits.known argument (List.mem_cons_of_mem _ listed)) typed'
  have right := splits.foldsTo.resembles (splits.known first List.mem_cons_self) typed
  rw [DataType.common?_comm] at meets
  exact Option.isSome_iff_exists.1 (DataType.common?_resembles left right (by simp [meets]))

/-- Validation finds the constants of the boundaries and checks their order. -/
theorem exists_boundaries [ZoneTable] (splits : Splits source first rest value node) :
    ∃ span boundaries, List.Forall₂ ValueExpr.FoldsTo rest boundaries ∧ Ascending boundaries ∧
      node.reduce = Reduce.splitBucket span value 0 boundaries := by
  obtain ⟨span, name, state, rfl⟩ := splits.isCall
  obtain ⟨arguments', binding', all, checked, rfl⟩ := (Validate.call_eq_ok rfl).1 splits.validates
  obtain ⟨first', rest', validFirst, validRest, rfl⟩ := List.forall₂_cons_left_iff.1 all
  simp only [Validate.checkCall, bind_eq_ok, pure_eq_ok, Stopped.check_eq_ok] at checked
  obtain ⟨_, ⟨boundaries, tail, ascends⟩, rfl⟩ := checked
  have folds : List.Forall₂ ValueExpr.FoldsTo rest boundaries :=
    forall₂_comp_iff.2 ⟨rest', validRest, Reduce.forall₂_of_constantTail tail⟩
  refine ⟨span, boundaries, folds, Validate.ascending_of_checkAscending ascends, ?_⟩
  obtain ⟨_, validFirst', reduces⟩ := splits.foldsTo
  obtain rfl := Except.ok.inj (validFirst.symm.trans validFirst')
  have knownFirst := Expr.ValidatesTo.known validFirst (splits.known first List.mem_cons_self)
  have absent : ¬value.isNull = true := mt (type_eq_null.1 ∘ isNull_iff.1) splits.present
  have divided : Reduce.Call.constant ⟨span, name, ValueExpr.arguments (first' :: rest')⟩ 0 =
      .ok value := by
    simp [Reduce.Call.constant, ValueExpr.arguments, knownFirst, reduces]
  have found : Reduce.Call.constantTail ⟨span, name, ValueExpr.arguments (first' :: rest')⟩ =
      .ok boundaries := tail
  simp only [ValueExpr.reduce, Reduce.callConstant, divided, found]
  exact if_neg absent

/-- A call counts the boundaries that are at most its value. -/
theorem counts [ZoneTable] (splits : Splits source first rest value node)
    (several : 2 ≤ rest.length) (folds : List.Forall₂ ValueExpr.FoldsTo rest boundaries) :
    Bounds boundaries value ∧ node.reduce =
      .ok (.integer (Int32.ofNat (boundaries.countP value.isAtMost))) := by
  obtain ⟨span, boundaries', folds', ascending, reduces⟩ := splits.exists_boundaries
  obtain rfl := List.right_unique_forall₂' ValueExpr.FoldsTo.rightUnique folds folds'
  have bounds : Bounds boundaries value := by
    refine ⟨ascending, by rwa [← folds.length_eq], fun boundary listed => ?_, splits.isAmount⟩
    obtain ⟨argument, listed, folds⟩ := exists_of_mem_right folds listed
    exact splits.comparable listed folds
  refine ⟨bounds, ?_⟩
  rw [reduces, Reduce.splitBucket_eq fun boundary listed => (bounds.compareBy_boundary listed).1,
    Int32.zero_add]

end Splits

/-- The boundaries that are at most the value are the first ones, as many as the bucket says. A
larger value of the same type, put among the same boundaries by any call, has no smaller bucket. -/
theorem split_separates_boundaries [ZoneTable] {source first node : ValueExpr}
    {rest : List ValueExpr}
    {value : Constant} (splits : Splits source first rest value node) (several : 2 ≤ rest.length)
    (few : rest.length < 2147483648) :
    ∃ boundaries, List.Forall₂ ValueExpr.FoldsTo rest boundaries ∧
      ∃ bucket, node.reduce = .ok (.integer bucket) ∧ IsBucket boundaries value bucket ∧
        ∀ source' first' rest' value' node', Splits source' first' rest' value' node' →
          List.Forall₂ ValueExpr.FoldsTo rest' boundaries → value'.type = value.type →
          compareBy .lte value value' = .ok true →
          ∃ bucket', node'.reduce = .ok (.integer bucket') ∧ IsBucket boundaries value' bucket' ∧
            bucket.toInt ≤ bucket'.toInt := by
  obtain ⟨-, boundaries, folds, -, -⟩ := splits.exists_boundaries
  obtain ⟨bounds, reduces⟩ := splits.counts several folds
  have length := folds.length_eq
  have counted (value : Constant) : (Int32.ofNat (boundaries.countP value.isAtMost)).toInt =
      boundaries.countP value.isAtMost := by
    have most : boundaries.countP value.isAtMost ≤ boundaries.length := List.countP_le_length
    exact Int32.toInt_ofNat_of_lt (by omega)
  refine ⟨boundaries, folds, _, reduces, bounds.isBucket (counted value), ?_⟩
  intro source' first' rest' value' node' splits' folds' sameType less
  have length' := folds'.length_eq
  obtain ⟨bounds', reduces'⟩ := splits'.counts (by omega) folds'
  refine ⟨_, reduces', bounds'.isBucket (counted value'), ?_⟩
  rw [counted, counted]
  exact Int.ofNat_le.2 (bounds.countP_mono bounds' sameType less)

/-- Two neighbouring whole numbers that are the same double. -/
private def collidingBoundaries : List ValueExpr :=
  [.ofConstant (.long 9007199254740992), .ofConstant (.long 9007199254740993)]

private def collidingSplit (number : Float) : ValueExpr :=
  .call .none "split" (.ofConstant (.double number) :: collidingBoundaries)
    (some ⟨.split, .plain⟩)

private theorem splits_colliding [ZoneTable] {number : Float}
    (isNumber : Number.Binary64.isNaN number = false) :
    Splits (collidingSplit number) (.ofConstant (.double number)) collidingBoundaries
      (.double number) (collidingSplit number) where
  isCall := ⟨_, _, _, rfl⟩
  typed := ⟨.integer, rfl⟩
  validates := rfl
  known := by simp [collidingBoundaries, ValueExpr.ofConstant, ValueExpr.isConstant]
  foldsTo := ⟨_, rfl, rfl⟩
  present := nofun
  isNumber := fun _ same => Constant.double.inj same ▸ isNumber

open Places

theorem split_separates_boundaries_colliding :
    Splits (collidingSplit 9007199254740992) (.ofConstant (.double 9007199254740992))
      collidingBoundaries (.double 9007199254740992) (collidingSplit 9007199254740992) ∧
    2 ≤ collidingBoundaries.length ∧ collidingBoundaries.length < 2147483648 ∧
    ∃ boundaries, List.Forall₂ ValueExpr.FoldsTo collidingBoundaries boundaries ∧
      IsBucket boundaries (.double 9007199254740992) 2 ∧
      ∃ bucket, (collidingSplit 9007199254740994).reduce = .ok (.integer bucket) ∧
        IsBucket boundaries (.double 9007199254740994) bucket ∧ 2 ≤ bucket.toInt := by
  have splits := splits_colliding (show Number.Binary64.isNaN 9007199254740992 = false by decide)
  obtain ⟨boundaries, folds, bucket, reduces, isBucket, larger⟩ :=
    split_separates_boundaries splits (by decide) (by decide)
  have both : (collidingSplit 9007199254740992).reduce = .ok (.integer 2) := rfl
  obtain rfl := Constant.integer.inj (Except.ok.inj (reduces.symm.trans both))
  have later := splits_colliding (show Number.Binary64.isNaN 9007199254740994 = false by decide)
  have sameType : DataType.double = .double := rfl
  have next := larger _ _ _ _ _ later folds sameType (by decide)
  exact ⟨splits, by decide, by decide, boundaries, folds, isBucket, next⟩

end EventQuery
