import EventQuery.Calendar.Places
import EventQuery.Proofs.CallSoundness
import EventQuery.Proofs.Resolution

/-!
How far folding is type sound. A well-typed expression that is known at compile time
reduces to a constant of its type or to `NULL`, or it fails with a diagnostic that lies in
the values: the static and the dynamic rules are written apart, and no node of a bound
expression can tell them apart. The one way out is a crash, and it is found at a quantum of
an instant whose local time is no date.
-/
namespace EventQuery

open Outcome DataType Reduce

/-- The position that a call of `enum` finds is not a `LONG`. -/
def Expr.IndexFits (expr : Expr) : Prop :=
  ∀ span name arguments state constant,
    expr = .value (.call span name arguments (some ⟨.enum, state⟩)) → expr.reduce = .ok constant →
      constant.type ≠ .long

/-- A call has fewer arguments than there are words of 31 bits. -/
def Expr.FewArguments : Expr → Prop
  | .value (.call _ _ arguments _) => arguments.length < 2147483648
  | _ => True

/-- A quantum of an instant that is a date, while clocks in its zone show none. -/
def Expr.LeavesCalendar (expr : Expr) : Prop :=
  ∃ span taken operand name zone ms,
    expr = .value (.quantum span taken operand name zone) ∧ operand.reduce = .ok (.datetime ms) ∧
      Reduce.LeavesCalendar (zone.getD .utc) ms.toInt

variable {crashes : Prop} {expr : Expr} {root : Path} {type : DataType}

/-! ### Predicates -/

namespace Typing

theorem type_bool {node : BoolExpr} :
    (Expr.bool node).type = .ok type ↔ node.checkTypes = .ok () ∧ .boolean = type := by
  simp only [Expr.type, bind_eq_ok, pure_eq_ok]
  constructor
  · rintro ⟨_, checked, same⟩
    exact ⟨checked, same⟩
  · rintro ⟨checked, same⟩
    exact ⟨(), checked, same⟩

end Typing

/-- Whether a predicate has a truth value, or fails because of the values. -/
theorem Reduce.sound_bool {node : BoolExpr} :
    Sound crashes .boolean (Expr.bool node).reduce ↔
      Ends (fun _ => True) (IsEnding crashes) node.reduce := by
  simp only [Expr.reduce]
  cases node.reduce with
  | ok truth => exact ⟨fun _ => trivial, fun _ => .inl rfl⟩
  | error cause => exact .rfl

/-! ### One node -/

/-- If the expression is well typed and known, its reduction is sound. -/
def Expr.ReducesSoundly (crashes : Prop) (expr : Expr) : Prop :=
  ∀ type, expr.type = .ok type → expr.isConstant = true → Sound crashes type expr.reduce

/-- If the expression is well typed and known, it leaves the calendar only where `crashes` holds. -/
def Expr.LeavesOnlyIf (crashes : Prop) (expr : Expr) : Prop :=
  ∀ type, expr.type = .ok type → expr.isConstant = true → expr.LeavesCalendar → crashes

namespace Expr.ReducesSoundly

/-- The truth value of a predicate that is part of another. -/
theorem truth {node : BoolExpr} (sound : (Expr.bool node).ReducesSoundly crashes)
    (typed : node.checkTypes = .ok ()) (known : node.isConstant = true) :
    Ends (fun _ => True) (IsEnding crashes) node.reduce :=
  sound_bool.1 (sound .boolean (Typing.type_bool.2 ⟨typed, rfl⟩) known)

private theorem comparison_ends {span : Span} {op : Relation} {a b : Constant}
    {left right common : DataType} (first : a.Fits left) (second : b.Fits right)
    (meets : common? left right = some common)
    (ordered : op.isOrdering = true → common ≠ .boolean) :
    Ends (fun _ => True) (IsEnding crashes) (comparison span op a b) := by
  obtain ⟨truth, found⟩ := first.compareBy_eq_ok second meets ordered
  rw [comparison, found]
  trivial

/-- The upper bound is compared with the value itself, not with the common type of the
value and the lower bound that the static rule compares it with. -/
private theorem isBetween_ends {span : Span} {value : Constant} {lower upper : Found}
    {source low high inner outer : DataType} (fits : value.Fits source)
    (first : Sound crashes low lower) (second : Sound crashes high upper)
    (meets : common? source low = some inner) (meets' : common? inner high = some outer)
    (ordered : outer ≠ .boolean) :
    Ends (fun _ => True) (IsEnding crashes) (isBetween span value lower upper) := by
  obtain ⟨common, meets'', ordered'⟩ := common?_through meets meets'
  have lowOrdered : inner ≠ .boolean := fun same =>
    ordered ((common?_eq_boolean meets').2 (.inl same))
  refine first.bind fun bound fitsLow => ?_
  refine (comparison_ends fits fitsLow meets fun _ => lowOrdered).bind fun above _ => ?_
  split
  · exact second.bind fun bound fitsHigh =>
      comparison_ends fits fitsHigh meets'' fun _ => ordered' ordered
  · trivial

private theorem isAmong_ends {span : Span} {value : Constant} {source : DataType}
    (fits : value.Fits source) {nodes : List ValueExpr}
    (children : ∀ node ∈ nodes, (Expr.value node).ReducesSoundly crashes)
    (known : ∀ node ∈ nodes, node.isConstant = true)
    (typed : ∀ node ∈ nodes, ∃ type common, node.type = .ok type ∧
      common? source type = some common) :
    Ends (fun _ => True) (IsEnding crashes) (isAmong span value (ValueExpr.arguments nodes)) := by
  induction nodes with
  | nil => trivial
  | cons node rest ih =>
    rw [List.forall_mem_cons] at children known typed
    obtain ⟨⟨type, common, typed, meets⟩, others⟩ := typed
    refine (children.1 type typed known.1).bind fun candidate fits' => ?_
    have compares : Ends (fun _ => True) (IsEnding crashes) (comparison span .eq value candidate) :=
      comparison_ends fits fits' meets fun orders => by cases orders
    refine compares.bind fun equal _ => ?_
    split
    · trivial
    · exact ih children.2 known.2 others

/-- The right-hand side of a membership in a vector is a path, which is never known. -/
private theorem isConstant_of_resolved? {vector : ValueExpr}
    (resolved : vector.resolved?.any Path.isVector = true) : vector.isConstant = false := by
  cases vector <;> simp only [ValueExpr.resolved?, Option.any_none, Bool.false_eq_true] at resolved
  rfl

private theorem of_bool {node : BoolExpr}
    (children : ∀ child ∈ node.children, child.ReducesSoundly crashes) :
    (Expr.bool node).ReducesSoundly crashes := by
  intro type typed known
  obtain ⟨checks, rfl⟩ := Typing.type_bool.1 typed
  refine sound_bool.2 ?_
  cases node <;>
    simp only [BoolExpr.children, List.forall_mem_cons, BoolExpr.checkTypes, bind_eq_ok,
      BoolExpr.isConstant, Bool.and_eq_true, Expr.isConstant] at children checks known
  case constant => trivial
  case boundary => cases known
  case stepReference => cases known
  case binary =>
    obtain ⟨first, second, _⟩ := children
    obtain ⟨_, typed, typed'⟩ := checks
    exact (first.truth typed known.1).bind fun _ _ =>
      (second.truth typed' known.2).bind fun _ _ => trivial
  case not =>
    exact (children.1.truth checks known).bind fun _ _ => trivial
  case comparison =>
    obtain ⟨first, second, _⟩ := children
    obtain ⟨left, typed, right, typed', compares⟩ := checks
    obtain ⟨common, meets, ordered⟩ := Typing.checkComparison_eq_ok.1 compares
    exact (first left typed known.1).bind fun _ fits =>
      (second right typed' known.2).bind fun _ fits' => comparison_ends fits fits' meets ordered
  case bounds =>
    obtain ⟨first, second, third, _⟩ := children
    obtain ⟨type, typed, bounded⟩ := checks
    obtain ⟨low, inner, high, outer, typedLow, meets, typedHigh, meets', ordered⟩ :=
      Typing.checkBounds_eq_ok.1 bounded
    exact (first type typed known.1.1).bind fun value fits =>
      (isBetween_ends fits (second low typedLow known.1.2) (third high typedHigh known.2) meets
        meets' ordered).bind fun _ _ => trivial
  case nullTest =>
    obtain ⟨type, typed, _⟩ := checks
    exact (children.1 type typed known).bind fun _ _ => trivial
  case inList =>
    obtain ⟨first, others⟩ := children
    obtain ⟨type, typed, members⟩ := checks
    refine (first type typed known.1).bind fun value fits => ?_
    exact isAmong_ends fits (List.forall_mem_map.1 others) (forall_isConstant known.2)
      (Typing.checkMembers_eq_ok.1 members)
  case inVector =>
    obtain ⟨type, typed, vector⟩ := checks
    have unknown := isConstant_of_resolved? (Typing.checkVector_eq_ok.1 vector).1
    exact absurd known.2 (by simp [unknown])
  case wrapper =>
    obtain ⟨type, typed, _⟩ := checks
    exact (children.1 type typed known).bind fun _ _ => trivial

private theorem of_value {node : ValueExpr} (resolved : (Expr.value node).Resolved root)
    (narrow : (Expr.value node).IndexFits) (leaves : (Expr.value node).LeavesOnlyIf crashes)
    (children : ∀ child ∈ node.children, child.ReducesSoundly crashes) :
    (Expr.value node).ReducesSoundly crashes := by
  intro type typed known
  have crashing := leaves type typed known
  simp only [Expr.type, Expr.isConstant] at typed known
  cases node
  case constant span value =>
    cases typed
    exact .inl rfl
  case path => cases known
  case parameter => cases known
  case aggregation => cases known
  case now => cases known
  case binary =>
    simp only [ValueExpr.children, List.forall_mem_cons, ValueExpr.type, bind_eq_ok,
      ValueExpr.isConstant, Bool.and_eq_true, Typing.binaryType_eq_ok] at children typed known
    obtain ⟨first, second, _⟩ := children
    obtain ⟨left, typed, right, typed', combines⟩ := typed
    exact (first left typed known.1).bind fun _ fits => (second right typed' known.2).bind
      fun _ fits' => orFault_ends (fits.operate_sound fits' combines)
  case unary =>
    simp only [ValueExpr.children, List.forall_mem_cons, ValueExpr.type,
      bind_eq_ok] at children typed
    obtain ⟨operand, typed, accepts⟩ := typed
    exact (children.1 operand typed known).bind fun _ fits => signedConstant_sound fits accepts
  case cast =>
    simp only [ValueExpr.children, List.forall_mem_cons, ValueExpr.type, bind_eq_ok,
      Typing.castType_eq_ok] at children typed
    obtain ⟨operand, typed, legal, rfl⟩ := typed
    exact (children.1 operand typed known).bind fun _ fits => orFault_ends (fits.cast_sound legal)
  case conversion =>
    simp only [ValueExpr.children, List.forall_mem_cons, ValueExpr.type,
      bind_eq_ok] at children typed
    obtain ⟨operand, typed, accepts⟩ := typed
    exact (children.1 operand typed known).bind fun _ fits => converted_sound fits accepts
  case quantum =>
    simp only [ValueExpr.children, List.forall_mem_cons, ValueExpr.type,
      bind_eq_ok] at children typed
    obtain ⟨operand, typed, accepts⟩ := typed
    have sound := children.1 operand typed known
    simp only [Expr.reduce, ValueExpr.reduce] at sound ⊢
    cases found : ValueExpr.reduce _ with
    | error cause => rwa [found] at sound
    | ok constant =>
      rw [found] at sound
      refine quantumConstant_sound sound accepts fun ms instant left => crashing ?_
      exact ⟨_, _, _, _, _, ms, rfl, instant ▸ found, left⟩
  case call span name arguments binding =>
    obtain ⟨binding, rfl, matched⟩ := resolved
    have sound : SoundArguments crashes arguments := fun node member =>
      have known := forall_isConstant (all_of_isConstantCall known) node member
      ⟨known, fun type typed =>
        children (.value node) (List.mem_map_of_mem member) type typed known⟩
    refine callConstant_sound sound known matched.accepted typed fun isEnum constant found => ?_
    obtain ⟨function, state⟩ := binding
    obtain rfl : function = .enum := isEnum
    exact narrow span name arguments state constant rfl found

/-- A resolved node reduces soundly if its children do. -/
theorem of_children (resolved : expr.Resolved root) (narrow : expr.IndexFits)
    (leaves : expr.LeavesOnlyIf crashes)
    (children : ∀ child ∈ expr.children, child.ReducesSoundly crashes) :
    expr.ReducesSoundly crashes := by
  cases expr with
  | bool node => exact of_bool children
  | value node => exact of_value resolved narrow leaves children

end Expr.ReducesSoundly

/-! ### Positions -/

private theorem type_ofInteger {position : Nat} (small : position < 2147483648) :
    (Constant.ofInteger (Int64.ofNat position)).type = .integer := by
  have value : (Int64.ofNat position).toInt = position :=
    Int64.toInt_ofNat_of_lt (by omega)
  unfold Constant.ofInteger Number.Width.int32?
  rw [value, if_pos (by omega)]
  rfl

private theorem enumIndex_narrow {span : Span} {value constant : Constant}
    {candidates : List Constant} {index : Nat} (small : index + candidates.length ≤ 2147483648)
    (found : enumIndex span value index candidates = .ok constant) : constant.type = .integer := by
  induction candidates generalizing index with
  | nil =>
    obtain rfl := Except.ok.inj found
    rfl
  | cons candidate rest ih =>
    rw [List.length_cons] at small
    simp only [enumIndex, bind_eq_ok] at found
    obtain ⟨equal, _, found⟩ := found
    split at found
    · obtain rfl := pure_eq_ok.1 found
      exact type_ofInteger (by omega)
    · exact ih (by omega) found

theorem Expr.FewArguments.indexFits (few : expr.FewArguments) : expr.IndexFits := by
  rintro span name arguments state constant rfl found
  simp only [Expr.reduce, ValueExpr.reduce, callConstant, bind_eq_ok] at found
  obtain ⟨value, _, candidates, tail, found⟩ := found
  have count : candidates.length = arguments.length - 1 := by
    simpa [arguments_eq_map] using length_of_mapM tail
  have small : arguments.length < 2147483648 := few
  rw [enumIndex_narrow (by omega) found]
  decide

/-! ### Whole expressions -/

theorem Expr.ReducesSoundly.of_everywhere (resolved : expr.Everywhere (Expr.Resolved root))
    (narrow : expr.Everywhere Expr.IndexFits) (leaves : expr.Everywhere (Expr.LeavesOnlyIf crashes)) :
    expr.Everywhere (Expr.ReducesSoundly crashes) := by
  have holds := (resolved.and narrow).and leaves
  clear resolved narrow leaves
  induction holds with
  | node here _ ih =>
    obtain ⟨⟨resolved, narrow⟩, leaves⟩ := here
    exact .node (of_children resolved narrow leaves fun child member => (ih child member).here) ih

/-- Folding ends with a constant of the type or, for a value, `NULL`, or it fails because of the
values alone. -/
def Expr.FoldsTo (type : DataType) (expr : Expr) : Prop :=
  Ends (fun constant => constant.type = type ∨ constant = .null ∧ ∃ node, expr = .value node)
    (fun diagnostic => IsOfValues diagnostic ∧ ¬IsOfExpression diagnostic) expr.reduce

/-- If the static rules type the expression and it is known at compile time, it folds to its
type. -/
def Expr.FoldsSoundly (expr : Expr) : Prop :=
  ∀ type, expr.type = .ok type → expr.isConstant = true → expr.FoldsTo type

/-- If the static rules type the expression and it is known at compile time, it is no quantum whose
local time is no date. -/
def Expr.StaysInCalendar (expr : Expr) : Prop :=
  ∀ type, expr.type = .ok type → expr.isConstant = true → ¬expr.LeavesCalendar

namespace Expr

theorem LeavesCalendar.reduce (leaves : expr.LeavesCalendar) : expr.reduce = .error crash := by
  obtain ⟨span, taken, operand, name, zone, ms, rfl, found, left⟩ := leaves
  simp only [Expr.reduce, ValueExpr.reduce, found]
  exact if_pos left

theorem FoldsSoundly.staysInCalendar (folds : expr.FoldsSoundly) : expr.StaysInCalendar := by
  intro type typed known leaves
  have ends := folds type typed known
  rw [FoldsTo, leaves.reduce] at ends
  exact not_isOfValues_crash ends.1

/-- A sound reduction that does not crash keeps to the type. -/
theorem foldsTo_of_sound (sound : Sound crashes type expr.reduce) :
    expr.FoldsTo type ∨ expr.reduce = .error crash ∧ crashes := by
  unfold FoldsTo
  cases found : expr.reduce with
  | error diagnostic =>
    rw [found] at sound
    cases sound with
    | values cause => exact .inl ⟨cause, cause.not_isOfExpression⟩
    | crash cause => exact .inr ⟨rfl, cause⟩
  | ok constant =>
    rw [found] at sound
    refine .inl (sound.imp id fun absent => ?_)
    cases expr with
    | value node => exact ⟨Constant.type_eq_null.1 absent, node, rfl⟩
    | bool node =>
      simp only [Expr.reduce, bind_eq_ok, pure_eq_ok] at found
      obtain ⟨truth, _, rfl⟩ := found
      cases absent

end Expr

/-- What binding accepts and the static rules type, and what is known at compile time, folds to its
type unless it crashes. No part of the expression crashes exactly if none of them is a quantum of
an instant that clocks show beyond the calendar. -/
theorem reduce_bound {context : Context} {source : Expr} (bound : source.bind context = .ok expr)
    (few : expr.Everywhere Expr.FewArguments) :
    (∀ type, expr.type = .ok type → expr.isConstant = true →
        expr.FoldsTo type ∨ expr.reduce = .error crash) ∧
      (expr.Everywhere Expr.FoldsSoundly ↔ expr.Everywhere Expr.StaysInCalendar) := by
  have resolved : expr.Everywhere (Expr.Resolved context.schema.root) :=
    Expr.BindsTo.resolved ⟨context, rfl, bound⟩
  have narrow : expr.Everywhere Expr.IndexFits := few.imp fun _ few => few.indexFits
  refine ⟨fun type typed known => ?_, fun folds => folds.imp fun _ => Expr.FoldsSoundly.staysInCalendar,
    fun stays => ?_⟩
  · have leaves : expr.Everywhere (Expr.LeavesOnlyIf True) := few.imp fun _ _ _ _ _ _ => trivial
    have sound := (Expr.ReducesSoundly.of_everywhere resolved narrow leaves).here type typed known
    exact (Expr.foldsTo_of_sound sound).imp_right And.left
  · have sound : expr.Everywhere (Expr.ReducesSoundly False) :=
      Expr.ReducesSoundly.of_everywhere resolved narrow stays
    exact sound.imp fun part sound type typed known =>
      (Expr.foldsTo_of_sound (sound type typed known)).resolve_right And.right

/-! ### An instant in Tokyo -/

/-- `EXTRACT(YEAR, TO_DATETIME(ms))` before it is bound. -/
private def yearSource (ms : Int64) : Expr :=
  .value (.ofQuantum (.extract .year) (.ofConversion .toDatetime (.ofConstant (.long ms))) none)

private def inTokyo : Context := .start ⟨.relation ["users"], []⟩ ⟨.tokyo, true⟩ .builtin

private def year (ms : Int64) : Expr :=
  .value (.quantum .none (.extract .year) (.ofConversion .toDatetime (.ofConstant (.long ms))) none
    (some .tokyo))

private theorem bind_year (ms : Int64) : (yearSource ms).bind inTokyo = .ok (year ms) := rfl

private theorem everywhere_year {P : Expr → Prop} {ms : Int64} (here : P (year ms))
    (instant : P (.value (.ofConversion .toDatetime (.ofConstant (.long ms)))))
    (count : P (.value (.ofConstant (.long ms)))) : (year ms).Everywhere P := by
  refine .node here fun child member => ?_
  obtain rfl := List.mem_singleton.1 member
  refine .node instant fun child member => ?_
  obtain rfl := List.mem_singleton.1 member
  exact .of_isLiteral rfl count

/-- Four hours before 1970, it is 1970 in Tokyo. -/
theorem reduce_bound_year :
    (year (-14400000)).reduce = .ok (.integer 1970) ∧
      (year (-14400000)).Everywhere Expr.FoldsSoundly := by
  refine ⟨by decide +kernel, (reduce_bound (bind_year _) ?_).2.2 ?_⟩
  · exact everywhere_year trivial trivial trivial
  · refine everywhere_year ?_ ?_ ?_
    · rintro type - - ⟨_, _, _, _, _, _, same, found, left⟩
      cases same
      cases found
      exact absurd left (by decide +kernel)
    all_goals
      rintro type - - ⟨_, _, _, _, _, _, same, -⟩
      cases same

/-- The last instant of the calendar has no date in Tokyo. -/
theorem not_foldsTo_lastInstant :
    ¬∀ (context : Context) (source expr : Expr) (type : DataType),
      source.bind context = .ok expr → expr.Everywhere Expr.FewArguments → expr.type = .ok type →
        expr.isConstant = true → expr.FoldsTo type := by
  intro folds
  have ends := folds inTokyo _ _ .integer (bind_year 8210266876799999)
    (everywhere_year trivial trivial trivial) rfl rfl
  have crashed : (year 8210266876799999).reduce = .error crash := by decide +kernel
  rw [Expr.FoldsTo, crashed] at ends
  exact not_isOfValues_crash ends.1

end EventQuery
