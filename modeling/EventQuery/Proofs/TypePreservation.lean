import EventQuery.Calendar.Places
import EventQuery.Proofs.FadingRules
import EventQuery.Proofs.KnownValues
import EventQuery.Proofs.Soundness
import EventQuery.Proofs.Validation

/-!
Optimization and types. Folding may put `NULL` in the place of a part of some type, and
arithmetic gives a faded operand the type of the other one. So an optimized expression
may be of another type, or of none. This happens exactly below the nodes that are not
steady, and without them the type stays or fades.
-/
namespace EventQuery

open Outcome DataType Reduce

variable {fold : Bool} {expr expr' mid : Expr} {root : Path}

/-! ### Steady nodes -/

/-- Whenever the expression is optimized, it is still typed, with its type or `NULL`. -/
def Expr.KeepsType (fold : Bool) (expr : Expr) : Prop :=
  ∀ expr', Optimized fold expr expr' → TypeFades expr expr'

/-- A value of the first type has the second one after optimization. -/
def ValueExpr.Becomes (fold : Bool) (node : ValueExpr) (type type' : DataType) : Prop :=
  node.type = .ok type ∧ ∃ node', node.optimize fold = .ok node' ∧ node'.type = .ok type'

/-- What an operator and a sum need of their operands, and a position of its value. If
arithmetic is not folded as a whole, a single operand that fades is one that the result
does without; a sum of `DOUBLE` values stays one; a position is folded to an `INTEGER`. -/
def Expr.Steady (fold : Bool) (expr : Expr) : Prop :=
  ∀ expr' type, Optimized fold expr expr' → expr.type = .ok type →
    match expr with
    | .value (.binary _ op left right) =>
      (fold && left.isConstant && right.isConstant) = true ∨
        ∀ a b a' b', left.Becomes fold a a' → right.Becomes fold b b' →
          (a' ≠ a → b' ≠ .null → Arithmetic.keepsWithoutLeft a b = true) ∧
            (b' ≠ b → a' ≠ .null → op.keepsWithoutRight a b = true)
    | .value (.aggregation _ .sum _ target _ _ _ _) => ¬target.Becomes fold .double .null
    | .value (.call _ _ _ (some ⟨.enum, _⟩)) => expr'.type ≠ .ok .long
    | _ => True

/-- A child, optimized, with its type. -/
structure Kept (fold : Bool) (expr expr' : Expr) : Prop where
  optimized : Optimized fold expr expr'
  fades : TypeFades expr expr'

/-! ### One node -/

namespace Kept

theorem checks {node node' : BoolExpr} (kept : Kept fold (.bool node) (.bool node'))
    (typed : node.checkTypes = .ok ()) : node'.checkTypes = .ok () := by
  obtain ⟨type', typed', _⟩ := kept.fades .boolean (Typing.type_bool.2 ⟨typed, rfl⟩)
  exact (Typing.type_bool.1 typed').1

theorem becomes {node node' : ValueExpr} {type type' : DataType}
    (kept : Kept fold (.value node) (.value node')) (typed : node.type = .ok type)
    (typed' : node'.type = .ok type') : node.Becomes fold type type' :=
  ⟨typed, node', Optimized.value_iff.1 kept.optimized, typed'⟩

end Kept

private theorem resolved?_of_isConstant {node : ValueExpr} (known : node.isConstant = true) :
    node.resolved? = none := by
  cases node <;> first | rfl | cases known

/-- Whether an optimized value is a path is known before. -/
theorem Optimized.resolved?_eq {node node' : ValueExpr}
    (optimized : Optimized fold (.value node) (.value node')) :
    node'.resolved? = node.resolved? := by
  obtain ⟨mid, same, folded⟩ := optimized.inversion
  cases folded with
  | kept => cases same <;> rfl
  | @value mid constant known =>
    have unchanged : mid.resolved? = node.resolved? := by cases same <;> rfl
    rw [← unchanged, resolved?_of_isConstant known]
    rfl

private theorem typeFades_bool {node : BoolExpr} {mid : Expr}
    (same : SameNode (Kept fold) (.bool node) mid) : TypeFades (.bool node) mid := by
  intro type typed
  obtain ⟨checks, rfl⟩ := Typing.type_bool.1 typed
  suffices ∃ node', mid = .bool node' ∧ node'.checkTypes = .ok () by
    obtain ⟨node', rfl, checks⟩ := this
    exact ⟨.boolean, Typing.type_bool.2 ⟨checks, rfl⟩, .rfl⟩
  cases same
  case leaf => exact ⟨_, rfl, checks⟩
  case connective first second =>
    simp only [BoolExpr.checkTypes, bind_eq_ok] at checks
    obtain ⟨_, typed, typed'⟩ := checks
    exact ⟨_, rfl, bind_eq_ok.2 ⟨(), first.checks typed, second.checks typed'⟩⟩
  case not only => exact ⟨_, rfl, only.checks checks⟩
  case comparison first second =>
    simp only [BoolExpr.checkTypes, bind_eq_ok] at checks
    obtain ⟨left, typed, right, typed', compares⟩ := checks
    obtain ⟨left', found, fades⟩ := first.fades left typed
    obtain ⟨right', found', fades'⟩ := second.fades right typed'
    exact ⟨_, rfl, bind_eq_ok.2 ⟨left', found, bind_eq_ok.2 ⟨right', found',
      Typing.checkComparison_fades fades fades' compares⟩⟩⟩
  case bounds first second third =>
    simp only [BoolExpr.checkTypes, bind_eq_ok] at checks
    obtain ⟨value, typed, bounded⟩ := checks
    obtain ⟨value', found, fades⟩ := first.fades value typed
    exact ⟨_, rfl, bind_eq_ok.2 ⟨value', found,
      Typing.checkBounds_fades fades second.fades third.fades bounded⟩⟩
  case nullTest only =>
    simp only [BoolExpr.checkTypes, bind_eq_ok] at checks
    obtain ⟨value, typed, _⟩ := checks
    obtain ⟨value', found, _⟩ := only.fades value typed
    exact ⟨_, rfl, bind_eq_ok.2 ⟨value', found, rfl⟩⟩
  case inList first others =>
    simp only [BoolExpr.checkTypes, bind_eq_ok] at checks
    obtain ⟨value, typed, members⟩ := checks
    obtain ⟨value', found, fades⟩ := first.fades value typed
    exact ⟨_, rfl, bind_eq_ok.2 ⟨value', found,
      Typing.checkMembers_fades fades (others.imp fun _ _ kept => kept.fades) members⟩⟩
  case inVector first second =>
    simp only [BoolExpr.checkTypes, bind_eq_ok] at checks
    obtain ⟨value, typed, vector⟩ := checks
    obtain ⟨value', found, fades⟩ := first.fades value typed
    exact ⟨_, rfl, bind_eq_ok.2 ⟨value', found,
      Typing.checkVector_fades fades second.optimized.resolved?_eq second.fades vector⟩⟩
  case wrapper only =>
    simp only [BoolExpr.checkTypes, bind_eq_ok] at checks
    obtain ⟨value, typed, predicate⟩ := checks
    obtain ⟨value', found, fades⟩ := only.fades value typed
    exact ⟨_, rfl, bind_eq_ok.2 ⟨value', found, Typing.checkPredicate_fades fades predicate⟩⟩

/-- Counts are constants already, so they keep their type. -/
private theorem integralCount_kept {count count' : Option ValueExpr}
    (settled : ∀ node, count = some node →
      ∃ span value, node = .constant span value ∧ value.type.isIntegral = true)
    (kept : Option.Rel (fun node node' => Kept fold (.value node) (.value node')) count count') :
    Typing.IntegralCount count' := by
  rintro node' rfl
  obtain ⟨node, rfl, only⟩ := exists_of_rel_some kept
  obtain ⟨span, value, rfl, integral⟩ := settled node rfl
  obtain rfl := Except.ok.inj (Optimized.value_iff.1 only.optimized)
  exact ⟨value.type, rfl, integral⟩

private theorem typeFades_value {node : ValueExpr} {mid : Expr}
    (same : SameNode (Kept fold) (.value node) mid) (settled : (Expr.value node).Settled)
    (optimized : Optimized fold (.value node) expr') (steady : (Expr.value node).Steady fold)
    (unknown : (fold && node.isConstant) = false) : TypeFades (.value node) mid := by
  intro type typed
  replace steady := steady expr' type optimized typed
  simp only [Expr.type] at typed
  cases same
  case leaf => exact ⟨type, typed, .rfl⟩
  case reference => exact ⟨type, typed, .rfl⟩
  case arithmetic first second =>
    simp only [ValueExpr.type, bind_eq_ok, Typing.binaryType_eq_ok] at typed
    obtain ⟨left, typed, right, typed', combines⟩ := typed
    obtain ⟨left', found, fades⟩ := first.fades left typed
    obtain ⟨right', found', fades'⟩ := second.fades right typed'
    have separate := steady.resolve_left
      (by simpa [ValueExpr.isConstant, Bool.and_assoc] using unknown)
    obtain ⟨type', combines', fades⟩ := (Arithmetic.type?_fades_iff combines fades fades').2
      (separate left right left' right' (first.becomes typed found) (second.becomes typed' found'))
    exact ⟨type', bind_eq_ok.2 ⟨left', found, bind_eq_ok.2 ⟨right', found',
      Typing.binaryType_eq_ok.2 combines'⟩⟩, fades⟩
  case unary only =>
    simp only [ValueExpr.type, bind_eq_ok] at typed
    obtain ⟨operand, typed, accepts⟩ := typed
    obtain ⟨operand', found, fades⟩ := only.fades operand typed
    obtain ⟨type', accepts', fades'⟩ := Typing.unaryType_fades fades accepts
    exact ⟨type', bind_eq_ok.2 ⟨operand', found, accepts'⟩, fades'⟩
  case cast only =>
    simp only [ValueExpr.type, bind_eq_ok] at typed
    obtain ⟨operand, typed, accepts⟩ := typed
    obtain ⟨operand', found, fades⟩ := only.fades operand typed
    exact ⟨type, bind_eq_ok.2 ⟨operand', found, Typing.castType_fades fades accepts⟩, .rfl⟩
  case conversion only =>
    simp only [ValueExpr.type, bind_eq_ok] at typed
    obtain ⟨operand, typed, accepts⟩ := typed
    obtain ⟨operand', found, fades⟩ := only.fades operand typed
    exact ⟨type, bind_eq_ok.2 ⟨operand', found, Typing.conversionType_fades fades accepts⟩, .rfl⟩
  case quantum only =>
    simp only [ValueExpr.type, bind_eq_ok] at typed
    obtain ⟨operand, typed, accepts⟩ := typed
    obtain ⟨operand', found, fades⟩ := only.fades operand typed
    exact ⟨type, bind_eq_ok.2 ⟨operand', found, Typing.quantumType_fades fades accepts⟩, .rfl⟩
  case call all =>
    have allFade := all.imp fun _ _ kept => kept.fades
    exact ⟨type, Typing.callType_fades allFade typed, .rfl⟩
  case aggregation counted only met lasting =>
    obtain ⟨conditioned, _, _, aggregates⟩ := Typing.aggregation_type_eq_ok.1 typed
    obtain ⟨type', aggregates', fades⟩ :=
      Typing.aggregationType_fades only.optimized.resolved?_eq only.fades
        (fun isSum double faded => by
          subst isSum
          exact steady (only.becomes double faded)) aggregates
    refine ⟨type', Typing.aggregation_type_eq_ok.2 ⟨?_, ?_, ?_, aggregates'⟩, fades⟩
    · rintro node' rfl
      obtain ⟨node, rfl, kept⟩ := exists_of_rel_some met
      exact kept.checks (conditioned node rfl)
    · exact integralCount_kept (fun node found => settled node (.inl found)) counted
    · exact integralCount_kept (fun node found => settled node (.inr found)) lasting

/-- What takes the place of a predicate is a predicate that is typed as well. -/
private theorem typeFades_folded {node : BoolExpr} (folded : Folded fold (.bool node) expr') :
    TypeFades (.bool node) expr' := by
  intro type typed
  refine ⟨type, ?_, .rfl⟩
  obtain ⟨checks, rfl⟩ := Typing.type_bool.1 typed
  cases folded with
  | kept => exact typed
  | predicate => rfl
  | absorbed => rfl
  | second =>
    simp only [BoolExpr.checkTypes, bind_eq_ok] at checks
    obtain ⟨_, _, checks⟩ := checks
    exact Typing.type_bool.2 ⟨checks, rfl⟩
  | first =>
    simp only [BoolExpr.checkTypes, bind_eq_ok] at checks
    obtain ⟨_, checks, _⟩ := checks
    exact Typing.type_bool.2 ⟨checks, rfl⟩
  | doubleNegation => exact Typing.type_bool.2 ⟨checks, rfl⟩

/-! ### Whole expressions -/

/-- The position of a steady call that is folded is an `INTEGER`. -/
private theorem indexFits_of_steady {node : ValueExpr} {type : DataType}
    (optimized : Optimized true (.value node) expr') (known : node.isConstant = true)
    (typed : node.type = .ok type) (steady : (Expr.value node).Steady true) :
    (Expr.value node).IndexFits := by
  rintro span name arguments state constant same found isLong
  obtain rfl := Expr.value.inj same
  obtain ⟨span', constant', rfl, found'⟩ := optimized.literal_of_isConstant known
  obtain rfl : constant = constant' := Except.ok.inj (found.symm.trans found')
  exact steady _ type optimized typed (congrArg Except.ok isLong)

/-- A known value without unsteady parts has a constant of its type, or `NULL`, if it has one. -/
private theorem reducesSoundly_of_steady {node : ValueExpr}
    (resolved : (Expr.value node).Everywhere (Expr.Resolved root))
    (steady : (Expr.value node).Everywhere (Expr.Steady true))
    (optimized : Optimized true (.value node) expr') (known : node.isConstant = true) :
    (Expr.value node).ReducesSoundly True := by
  generalize same : Expr.value node = expr at resolved steady optimized
  induction expr using Expr.byChildren generalizing node expr' with
  | node expr ih =>
    subst same
    intro type typed _
    obtain ⟨mid, same, _⟩ := optimized.inversion
    have narrow := indexFits_of_steady optimized known typed steady.here
    have leaves : (Expr.value node).LeavesOnlyIf True := fun _ _ _ _ => trivial
    refine Expr.ReducesSoundly.of_children resolved.here narrow leaves ?_ type typed known
    have sound : SameNode (fun child _ => child.ReducesSoundly True) (.value node) mid := by
      refine same.imp fun child member child' optimized => ?_
      obtain ⟨knownChild, node', rfl⟩ := ValueExpr.isConstant_child known member
      exact ih _ member knownChild rfl (resolved.child member) (steady.child member) optimized
    refine sound.forall_children fun span name arguments binding hidden isCall _ => ?_
    obtain rfl := Expr.value.inj isCall
    obtain ⟨reference, asks⟩ := Optimize.exists_about hidden
    exact absurd known (by simp [ValueExpr.isConstant, Reduce.isConstantCall, asks])

/-- What an expression without unsteady parts is folded to has its type, or `NULL`. -/
private theorem typeFades_known {node : ValueExpr}
    (resolved : (Expr.value node).Everywhere (Expr.Resolved root))
    (steady : (Expr.value node).Everywhere (Expr.Steady true))
    (optimized : Optimized true (.value node) expr') (known : node.isConstant = true) :
    TypeFades (.value node) expr' := by
  intro type typed
  obtain ⟨span, constant, rfl, found⟩ := optimized.literal_of_isConstant known
  have sound := reducesSoundly_of_steady resolved steady optimized known type typed known
  rw [show (Expr.value node).reduce = .ok constant from found] at sound
  exact ⟨constant.type, rfl, sound⟩

/-- What takes the place of a value that is not known is a node of its kind. -/
private theorem eq_of_folded {node : ValueExpr}
    (same : SameNode (Optimized fold) (.value node) mid) (folded : Folded fold mid expr')
    (optimized : Optimized fold (.value node) expr')
    (unknown : (fold && node.isConstant) = false) : mid = expr' := by
  obtain ⟨node', rfl⟩ := optimized.exists_value
  cases folded with
  | kept => rfl
  | value =>
    have known : node.isConstant = true := optimized.isConstant_of_value rfl
    exact absurd known (Bool.eq_false_iff.1 unknown)

theorem Expr.keepsType_of_steady
    (established : expr.Everywhere fun expr => expr.Resolved root ∧ expr.Settled)
    (steady : expr.Everywhere (Expr.Steady fold)) : expr.KeepsType fold := by
  intro expr' optimized
  induction expr using Expr.byChildren generalizing expr' with
  | node expr ih =>
    obtain ⟨mid, same, folded⟩ := optimized.inversion
    have children : SameNode (Kept fold) expr mid := same.imp fun child member child' optimized =>
      ⟨optimized, ih child member (established.child member) (steady.child member) child' optimized⟩
    cases expr with
    | bool node =>
      have through := typeFades_bool children
      cases mid with
      | bool node' =>
        exact through.trans (fun first second => first.trans second) (typeFades_folded folded)
      | value node' => cases same
    | value node =>
      by_cases known : (fold && node.isConstant) = true
      · obtain ⟨rfl, known⟩ := Bool.and_eq_true_iff.1 known
        exact typeFades_known (established.imp fun _ both => both.1) steady optimized known
      · have unknown := Bool.eq_false_iff.2 known
        obtain rfl := eq_of_folded same folded optimized unknown
        exact typeFades_value children established.here.2 optimized steady.here unknown

/-! The other direction: a node whose type stays, with children whose types stay, is steady. -/

private theorem steady_arithmetic {span : Span} {op : Arithmetic} {left right : ValueExpr}
    (keeps : (Expr.value (.binary span op left right)).KeepsType fold)
    (children : ∀ child ∈ (Expr.value (.binary span op left right)).children,
      child.KeepsType fold) : (Expr.value (.binary span op left right)).Steady fold := by
  intro expr' type optimized typed
  refine or_iff_not_imp_left.2 fun unknown a b a' b' => ?_
  rintro ⟨typedLeft, left', first, typedLeft'⟩ ⟨typedRight, right', second, typedRight'⟩
  obtain ⟨mid, same, folded⟩ := optimized.inversion
  obtain rfl := eq_of_folded same folded optimized
    (by simpa [ValueExpr.isConstant, Bool.and_assoc] using unknown)
  obtain ⟨type', typed', fades⟩ := keeps _ optimized type typed
  cases same
  case leaf childless => cases childless
  case arithmetic optimizedLeft optimizedRight =>
    have keepsLeft := children (.value left) (by simp [Expr.children, ValueExpr.children])
    have keepsRight := children (.value right) (by simp [Expr.children, ValueExpr.children])
    obtain ⟨_, foundLeft, fadesLeft⟩ := keepsLeft _ optimizedLeft a typedLeft
    obtain ⟨_, foundRight, fadesRight⟩ := keepsRight _ optimizedRight b typedRight
    obtain rfl := Except.ok.inj (first.symm.trans (Optimized.value_iff.1 optimizedLeft))
    obtain rfl := Except.ok.inj (second.symm.trans (Optimized.value_iff.1 optimizedRight))
    obtain rfl := Except.ok.inj (typedLeft'.symm.trans foundLeft)
    obtain rfl := Except.ok.inj (typedRight'.symm.trans foundRight)
    simp only [Expr.type, ValueExpr.type, typedLeft, typedLeft', typedRight, typedRight',
      bind_eq_ok, Except.ok.injEq, exists_eq_left', Typing.binaryType_eq_ok] at typed typed'
    exact (Arithmetic.type?_fades_iff typed fadesLeft fadesRight).1 ⟨type', typed', fades⟩

private theorem steady_sum {span : Span} {count quanta : Option ValueExpr} {target : ValueExpr}
    {condition : Option BoolExpr} {scope : Option String} {scopePath : Option Path}
    (keeps : (Expr.value
      (.aggregation span .sum count target condition scope quanta scopePath)).KeepsType fold) :
    (Expr.value
      (.aggregation span .sum count target condition scope quanta scopePath)).Steady fold := by
  rintro expr' type optimized typed ⟨double, target', only, faded⟩
  obtain ⟨mid, same, folded⟩ := optimized.inversion
  obtain rfl := eq_of_folded same folded optimized (Bool.and_false fold)
  obtain ⟨type', typed', fades⟩ := keeps _ optimized type typed
  cases same
  case leaf childless => simp [Expr.children, ValueExpr.children] at childless
  case aggregation optimizedTarget _ _ =>
    obtain rfl := Except.ok.inj (only.symm.trans (Optimized.value_iff.1 optimizedTarget))
    obtain ⟨_, _, _, summed⟩ := Typing.aggregation_type_eq_ok.1 typed
    obtain ⟨_, _, _, summed'⟩ := Typing.aggregation_type_eq_ok.1 typed'
    rw [double] at summed
    rw [faded] at summed'
    obtain rfl : DataType.double = type := Except.ok.inj summed
    obtain rfl : long = type' := Except.ok.inj summed'
    cases fades.eq_of_ne (by decide)

private theorem steady_enum {span : Span} {name : String} {arguments : List ValueExpr}
    {state : CallState}
    (keeps : (Expr.value (.call span name arguments (some ⟨.enum, state⟩))).KeepsType fold) :
    (Expr.value (.call span name arguments (some ⟨.enum, state⟩))).Steady fold := by
  intro expr' type optimized typed isLong
  obtain ⟨type', typed', fades⟩ := keeps _ optimized type typed
  obtain rfl := Except.ok.inj (isLong.symm.trans typed')
  obtain ⟨_, _, isInteger⟩ := bind_eq_ok.1 typed
  obtain rfl := pure_eq_ok.1 isInteger
  cases fades.eq_of_ne (by decide)

theorem Expr.steady_of_keepsType (keeps : expr.KeepsType fold)
    (children : ∀ child ∈ expr.children, child.KeepsType fold) : expr.Steady fold := by
  intro expr' type optimized typed
  split
  case h_1 => exact steady_arithmetic keeps children expr' type optimized typed
  case h_2 => exact steady_sum keeps expr' type optimized typed
  case h_3 => exact steady_enum keeps expr' type optimized typed
  case h_4 => trivial

/-- Optimization keeps the type of a validated expression and of all its parts, up to
`NULL`, exactly if all its parts are steady. -/
theorem keepsType_iff_steady [ZoneTable] {context : Context} {source bound : Expr}
    {point : Option Path}
    (binds : source.bind context = .ok bound) (valid : bound.validate = .ok (expr, point)) :
    (∃ type, expr.type = .ok type) ∧
      (expr.Everywhere (Expr.KeepsType fold) ↔ expr.Everywhere (Expr.Steady fold)) := by
  obtain ⟨validates, typed, _⟩ := Expr.validate_eq_ok valid
  have resolved : bound.Everywhere (Expr.Resolved context.schema.root) :=
    Expr.BindsTo.resolved ⟨context, rfl, binds⟩
  refine ⟨typed, fun keeps => ?_, fun steady => ?_⟩
  · exact keeps.of_children fun _ => Expr.steady_of_keepsType
  · exact ((validates.settled resolved).and steady).nested.imp fun _ both =>
      Expr.keepsType_of_steady (both.imp fun _ both => both.1) (both.imp fun _ both => both.2)

/-! ### A type that drifts -/

private def scope : Context := .start ⟨.relation ["users"], []⟩ ⟨.utc, true⟩ .builtin

/-- `TO_MILLIS(NOW() - DAYS(NULL))`, with some operand of the minus sign. -/
private def elapsed (days : ValueExpr) : Expr :=
  .value (.ofConversion .toMillis (.ofBinary .subtract (.now .none) days))

private def absentDays : Expr := elapsed (.ofConversion .days (.ofConstant .null))

open Places

/-- The difference of an instant and a number of days is an instant. If the number is
folded to `NULL`, it counts as one of two instants, and their difference is a number. -/
theorem not_type_ok_elapsed :
    ∃ (source bound expr expr' : Expr) (point : Option Path), source.bind scope = .ok bound ∧
      bound.validate = .ok (expr, point) ∧ expr.type = .ok .long ∧
      expr.optimize true = .ok expr' ∧ ∀ type, expr'.type ≠ .ok type :=
  ⟨absentDays, absentDays, absentDays, elapsed (.ofConstant .null), none, rfl, rfl, rfl, rfl,
    fun _ typed => by cases typed⟩

/-- So some part is not steady. -/
theorem not_steady_elapsed : ¬absentDays.Everywhere (Expr.Steady true) := by
  intro steady
  have binds : absentDays.bind scope = .ok absentDays := rfl
  have keeps := ((keepsType_iff_steady binds rfl).2.2 steady).here
  obtain ⟨_, typed, _⟩ := keeps (elapsed (.ofConstant .null)) rfl .long rfl
  cases typed

end EventQuery
