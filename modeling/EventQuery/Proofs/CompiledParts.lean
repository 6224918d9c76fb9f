import EventQuery.Proofs.KnownPasses

/-!
The parts of an expression in a compilation with folding. Every part of the source can be
compiled where it stands, and every part of the result is a constant or what a part of the
source is compiled to.
-/
namespace EventQuery

open Outcome

/-! ### Parts -/

namespace Expr

theorem HasPart.eq_of_isLiteral {expr part : Expr} (has : expr.HasPart part)
    (literal : expr.isLiteral = true) : part = expr := by
  cases has with
  | whole => rfl
  | within member _ =>
    obtain ⟨span, value, rfl | rfl⟩ := exists_of_isLiteral literal <;> cases member

/-- When the children of a node stem from those of its source, or are literals, the parts of a
tree stem from those of its source. -/
theorem HasPart.stems {R : Expr → Expr → Prop}
    (children : ∀ {expr expr'}, R expr expr' → ∀ child' ∈ expr'.children,
      child'.isLiteral = true ∨ ∃ child ∈ expr.children, R child child')
    {expr expr' part' : Expr} (has : expr'.HasPart part') (related : R expr expr') :
    part'.isLiteral = true ∨ ∃ part, expr.HasPart part ∧ R part part' := by
  induction has generalizing expr with
  | whole => exact .inr ⟨expr, .whole, related⟩
  | within member has ih =>
    rcases children related _ member with literal | ⟨child, listed, related⟩
    · exact .inl (has.eq_of_isLiteral literal ▸ literal)
    · refine (ih related).imp_right ?_
      rintro ⟨part, has, related⟩
      exact ⟨part, .within listed has, related⟩

end Expr

/-! ### Binding -/

theorem Context.Encloses.surrounded {outer inner inner' : Context} (encloses : outer.Encloses inner)
    (surrounds : inner.Surrounds inner') : outer.Encloses inner' := by
  cases surrounds with
  | here => exact encloses
  | inScope => exact encloses.inScope _

/-- The second expression is the first one bound somewhere inside the context. -/
def Expr.BindsInside (outer : Context) (expr expr' : Expr) : Prop :=
  ∃ inner, outer.Encloses inner ∧ BindsIn inner expr expr'

namespace Expr.BindsIn

variable {context : Context} {source expr : Expr}

/-- Every child of a node is bound; binding drops none of them. -/
theorem exists_child (binds : BindsIn context source expr) {child : Expr}
    (member : child ∈ source.children) :
    ∃ child' ∈ expr.children, ∃ inner, context.Surrounds inner ∧ BindsIn inner child child' := by
  by_cases plain : source.isPlain = true
  · have same := (sameNode_iff plain).1 binds
    obtain ⟨child', listed, binds⟩ :=
      same.symm.exists_child_of_isPlain (same.isPlain_eq.trans plain) child member
    exact ⟨child', listed, context, .here, binds⟩
  cases binds with
  | @bool node node' bound => cases node <;> first | exact absurd rfl plain | cases member
  | @value node node' bound =>
    cases node <;> first | exact absurd rfl plain | cases member; done | skip
    case quantum =>
      simp only [ValueExpr.bind, bind_eq_ok, pure_eq_ok, Stopped.within_eq_ok] at bound
      obtain ⟨operand', only, rfl⟩ := bound
      obtain rfl := List.mem_singleton.1 member
      exact ⟨_, List.mem_singleton_self _, context, .here, .value only⟩
    case call =>
      obtain ⟨node, listed, rfl⟩ := List.mem_map.1 member
      obtain ⟨known, found, state⟩ := Bind.call_iff.1 bound
      rcases state with ⟨state, unbound, rfl⟩ | ⟨-, arguments', state, all, -, rfl⟩
      · obtain ⟨-, span, text, rfl⟩ :=
          Bind.complete_of_unbound (Bind.accepts_of_function found) unbound
        obtain rfl := List.mem_singleton.1 listed
        exact ⟨_, List.mem_singleton_self _, context, .here, .value rfl⟩
      · obtain ⟨node', listed, bound⟩ := exists_of_mem_left all listed
        exact ⟨_, List.mem_map_of_mem listed, context, .here, .value bound⟩
    case aggregation =>
      obtain ⟨path, count', target', condition', quanta', -, counted, only, met, lasting, rfl⟩ :=
        Bind.aggregation_iff.1 bound
      simp only [children, ValueExpr.children, List.mem_append, List.mem_cons, List.mem_map,
        Option.mem_toList] at member ⊢
      rcases member with (⟨node, rfl, rfl⟩ | rfl | ⟨node, rfl, rfl⟩) | ⟨node, rfl, rfl⟩
      · obtain ⟨node', binds, rfl⟩ := rel_some_iff.1 counted
        exact ⟨_, .inl (.inl ⟨node', rfl, rfl⟩), context, .here, .value binds⟩
      · exact ⟨_, .inl (.inr (.inl rfl)), context, .here, .value only⟩
      · obtain ⟨node', binds, rfl⟩ := rel_some_iff.1 met
        exact ⟨_, .inl (.inr (.inr ⟨node', rfl, rfl⟩)), _, .inScope, .bool binds⟩
      · obtain ⟨node', binds, rfl⟩ := Bind.quantaBinds_some.1 lasting
        exact ⟨_, .inr ⟨node', rfl, rfl⟩, _, .inScope, .value binds⟩

end Expr.BindsIn

namespace Expr.BindsInside

variable {outer : Context} {expr expr' : Expr}

theorem exists_child (binds : BindsInside outer expr expr') {child : Expr}
    (member : child ∈ expr.children) :
    ∃ child' ∈ expr'.children, BindsInside outer child child' := by
  obtain ⟨inner, encloses, binds⟩ := binds
  obtain ⟨child', listed, inner', surrounds, binds⟩ := binds.exists_child member
  exact ⟨child', listed, inner', encloses.surrounded surrounds, binds⟩

theorem of_part (binds : BindsInside outer expr expr') {part' : Expr} (has : expr'.HasPart part') :
    part'.isLiteral = true ∨ ∃ part, expr.HasPart part ∧ BindsInside outer part part' := by
  refine has.stems (fun binds child' member => ?_) binds
  obtain ⟨inner, encloses, binds⟩ := binds
  refine (binds.inversion.2 child' member).imp_right ?_
  rintro ⟨child, listed, inner', surrounds, binds⟩
  exact ⟨child, listed, inner', encloses.surrounded surrounds, binds⟩

theorem exists_resolved (binds : BindsInside outer expr expr') :
    ∃ root, expr'.Everywhere (Resolved root) := by
  obtain ⟨inner, -, binds⟩ := binds
  exact ⟨inner.schema.root, binds.everywhere_bound.imp fun _ bound => bound.resolved⟩

end Expr.BindsInside

/-! ### Validation -/

namespace Expr.ValidatesTo

variable {root : Path} {source expr : Expr}

/-- Every child of a node is validated. It stays there, or as a count it is folded. -/
theorem exists_child [ZoneTable] (validates : ValidatesTo source expr)
    (resolved : source.Resolved root) {child : Expr} (member : child ∈ source.children) :
    (∃ child' ∈ expr.children, ValidatesTo child child') ∨
      ∃ node valid folded, child = .value node ∧ node.validate = .ok valid ∧
        valid.FoldsToCount 1 folded := by
  by_cases plain : source.isPlain = true
  · have same := (sameNode_iff plain).1 validates
    exact .inl (same.symm.exists_child_of_isPlain (same.isPlain_eq.trans plain) child member)
  cases validates with
  | @bool node node' valid => cases node <;> first | exact absurd rfl plain | cases member
  | @value node node' valid =>
    cases node <;> first | exact absurd rfl plain | cases member; done | skip
    case quantum span taken operand zone known =>
      obtain rfl := List.mem_singleton.1 member
      rcases zone with _ | zone <;>
        simp only [ValueExpr.validate, bind_eq_ok, pure_eq_ok, Stopped.within_eq_ok] at valid
      · obtain ⟨operand', only, rfl⟩ := valid
        exact .inl ⟨_, List.mem_singleton_self _, .value only⟩
      · obtain ⟨operand', only, _, _, rfl⟩ := valid
        exact .inl ⟨_, List.mem_singleton_self _, .value only⟩
    case call span name arguments binding =>
      obtain ⟨known, rfl, fits⟩ := resolved
      obtain ⟨node, listed, rfl⟩ := List.mem_map.1 member
      by_cases validated : Validate.validatesArguments known.function = true
      · obtain ⟨arguments', binding', all, -, rfl⟩ := (Validate.call_eq_ok validated).1 valid
        obtain ⟨node', listed, valid⟩ := exists_of_mem_left all listed
        exact .inl ⟨_, List.mem_map_of_mem listed, .value valid⟩
      · simp only [ValueExpr.validate, validated] at valid
        cases valid
        obtain ⟨reference, asks⟩ : ∃ reference, known.function = .about reference := by
          cases asked : known.function <;>
            simp only [asked, Validate.validatesArguments, not_true_eq_false] at validated
          exact ⟨_, rfl⟩
        obtain ⟨span, text, rfl, -⟩ := fits.asked reference asks
        obtain rfl := List.mem_singleton.1 listed
        exact .inl ⟨_, List.mem_singleton_self _, .value rfl⟩
    case aggregation =>
      obtain ⟨count', target', condition', quanta', -, counted, only, met, lasting, rfl⟩ :=
        Validate.aggregation_parts valid
      simp only [children, ValueExpr.children, List.mem_append, List.mem_cons, List.mem_map,
        Option.mem_toList] at member ⊢
      rcases member with (⟨node, rfl, rfl⟩ | rfl | ⟨node, rfl, rfl⟩) | ⟨node, rfl, rfl⟩
      · obtain ⟨folded, folds, -⟩ := rel_some_iff.1 counted
        obtain ⟨valid, validates, folds⟩ := Validate.exists_of_validCount folds
        exact .inr ⟨node, valid, folded, rfl, validates, folds⟩
      · exact .inl ⟨_, .inl (.inr (.inl rfl)), .value only⟩
      · obtain ⟨node', validates, rfl⟩ := rel_some_iff.1 met
        exact .inl ⟨_, .inl (.inr (.inr ⟨node', rfl, rfl⟩)), .bool validates⟩
      · obtain ⟨folded, folds, -⟩ := rel_some_iff.1 lasting
        obtain ⟨valid, validates, folds⟩ := Validate.exists_of_validCount folds
        exact .inr ⟨node, valid, folded, rfl, validates, folds⟩

theorem of_part [ZoneTable] (validates : ValidatesTo source expr)
    (resolved : source.Everywhere (Resolved root)) {part' : Expr} (has : expr.HasPart part') :
    part'.isLiteral = true ∨ ∃ part, source.HasPart part ∧ ValidatesTo part part' := by
  have stems := has.stems
    (R := fun source expr => ValidatesTo source expr ∧ source.Everywhere (Resolved root)) ?_
    ⟨validates, resolved⟩
  · exact stems.imp_right fun ⟨part, has, validates, _⟩ => ⟨part, has, validates⟩
  rintro source expr ⟨validates, resolved⟩ child' member
  refine ((validates.inversion resolved.here).2.2 child' member).imp_right ?_
  rintro ⟨child, listed, validates⟩
  exact ⟨child, listed, validates, resolved.child listed⟩

theorem eq_of_isLiteral [ZoneTable] (validates : ValidatesTo source expr)
    (literal : source.isLiteral = true) :
    expr = source := by
  obtain ⟨span, value, rfl | rfl⟩ := exists_of_isLiteral literal <;>
    cases validates with | _ valid => cases valid; rfl

end Expr.ValidatesTo

/-! ### Optimization -/

namespace Optimized

variable {fold : Bool} {root : Path} {expr expr' : Expr}

theorem eq_of_isLiteral (optimized : Optimized fold expr expr') (literal : expr.isLiteral = true) :
    expr' = expr := by
  obtain ⟨span, value, rfl | rfl⟩ := Expr.exists_of_isLiteral literal <;>
    exact (Except.ok.inj optimized).symm

/-- The argument that names a statement is a literal. -/
private theorem isLiteral_of_hidden {span : Span} {name : String} {arguments : List ValueExpr}
    {binding : Binding} (hidden : Optimize.optimizesArguments binding.function = false)
    (resolved : (Expr.value (.call span name arguments (some binding))).Resolved root)
    {child : Expr} (member : child ∈ arguments.map .value) : child.isLiteral = true := by
  obtain ⟨reference, asks⟩ := Optimize.exists_about hidden
  obtain ⟨_, ⟨⟩, fits⟩ := resolved
  obtain ⟨span, text, rfl, -⟩ := fits.asked reference asks
  obtain rfl := List.mem_singleton.1 member
  rfl

/-- Every child of a node is optimized. -/
theorem exists_child (optimized : Optimized fold expr expr') (resolved : expr.Resolved root)
    {child : Expr} (member : child ∈ expr.children) : ∃ child', Optimized fold child child' := by
  obtain ⟨mid, same, -⟩ := optimized.exists_collapse
  have each : SameNode (fun child _ => ∃ child', Optimized fold child child') expr mid :=
    same.imp fun _ _ child' optimized => ⟨child', optimized⟩
  refine each.forall_children ?_ child member
  rintro span name arguments binding hidden rfl rfl child member
  obtain ⟨span, value, rfl | rfl⟩ :=
    Expr.exists_of_isLiteral (isLiteral_of_hidden hidden resolved member) <;> exact ⟨_, rfl⟩

private theorem child_of_sameNode {mid child' : Expr} (same : SameNode (Optimized fold) expr mid)
    (resolved : expr.Resolved root) (member : child' ∈ mid.children) :
    child'.isLiteral = true ∨ ∃ child ∈ expr.children, Optimized fold child child' := by
  have stems : SameNode (fun _ child' => child'.isLiteral = true ∨
      ∃ child ∈ expr.children, Optimized fold child child') expr mid :=
    same.imp fun child member _ optimized => .inr ⟨child, member, optimized⟩
  refine stems.symm.forall_children ?_ child' member
  rintro span name arguments binding hidden rfl rfl child member
  exact .inl (isLiteral_of_hidden hidden resolved member)

theorem of_part (optimized : Optimized fold expr expr')
    (resolved : expr.Everywhere (Expr.Resolved root)) {part' : Expr} (has : expr'.HasPart part') :
    part'.isLiteral = true ∨ ∃ part, expr.HasPart part ∧ Optimized fold part part' := by
  induction expr using Expr.byChildren generalizing expr' with
  | node expr ih =>
    obtain ⟨mid, same, folded⟩ := optimized.inversion
    have below {child child' : Expr} (member : child ∈ expr.children)
        (optimized : Optimized fold child child') (has : child'.HasPart part') :
        part'.isLiteral = true ∨ ∃ part, expr.HasPart part ∧ Optimized fold part part' := by
      refine (ih child member optimized (resolved.child member) has).imp_right ?_
      rintro ⟨part, has, optimized⟩
      exact ⟨part, .within member has, optimized⟩
    cases folded with
    | kept =>
      cases has with
      | whole => exact .inr ⟨expr, .whole, optimized⟩
      | @within _ child' _ listed has =>
        rcases child_of_sameNode same resolved.here listed with literal | ⟨child, member, optimized⟩
        · exact .inl (has.eq_of_isLiteral literal ▸ literal)
        · exact below member optimized has
    | predicate => exact .inl (has.eq_of_isLiteral rfl ▸ rfl)
    | value => exact .inl (has.eq_of_isLiteral rfl ▸ rfl)
    | absorbed => exact .inl (has.eq_of_isLiteral rfl ▸ rfl)
    | second =>
      cases same with
      | leaf childless => cases childless
      | connective first second =>
        exact below (List.mem_cons_of_mem _ (List.mem_singleton_self _)) second has
    | first =>
      cases same with
      | leaf childless => cases childless
      | connective first second => exact below (List.mem_cons_self ..) first has
    | doubleNegation =>
      cases same with
      | leaf childless => cases childless
      | not only =>
        exact below (List.mem_singleton_self _) only
          (.within (List.mem_singleton_self _) has)

end Optimized

/-! ### Compilation -/

/-- The second expression is the first one compiled, with folding, somewhere inside the context. -/
def Expr.CompilesInside [ZoneTable] (outer : Context) (expr expr' : Expr) : Prop :=
  ∃ bound, BindsInside outer expr bound ∧
    ∃ valid, ValidatesTo bound valid ∧ Optimized true valid expr'

namespace Expr.CompilesInside

variable {outer : Context} {expr expr' part part' : Expr}

private theorem exists_child [ZoneTable] (compiles : CompilesInside outer expr expr') {child : Expr}
    (member : child ∈ expr.children) : ∃ child', CompilesInside outer child child' := by
  obtain ⟨bound, binds, valid, validates, optimized⟩ := compiles
  obtain ⟨root, resolved⟩ := binds.exists_resolved
  obtain ⟨boundChild, listed, bindsChild⟩ := binds.exists_child member
  rcases validates.exists_child resolved.here listed with
    ⟨validChild, isChild, validatesChild⟩ | ⟨node, validNode, folded, rfl, validatesNode, folds⟩
  · have settled := validates.settled resolved
    obtain ⟨child', optimizedChild⟩ := optimized.exists_child settled.here.1 isChild
    exact ⟨child', boundChild, bindsChild, validChild, validatesChild, optimizedChild⟩
  · obtain ⟨what, count, folds⟩ := folds
    obtain ⟨value, known, found, -⟩ := Validate.foldCount_eq_ok.1 folds
    obtain ⟨span, optimizes⟩ := ValidatesTo.optimize_of_isConstant validatesNode
      ((ValidatesTo.isConstant_iff (.value validatesNode)).1 known) (resolved.child listed) found
    exact ⟨_, _, bindsChild, _, .value validatesNode, Optimized.value_iff.2 optimizes⟩

/-- Every part of an expression that compiles is compiled where it stands. -/
theorem exists_part [ZoneTable] (compiles : CompilesInside outer expr expr')
    (has : expr.HasPart part) :
    ∃ part', CompilesInside outer part part' := by
  induction has generalizing expr' with
  | whole => exact ⟨expr', compiles⟩
  | within member _ ih =>
    obtain ⟨child', compiles⟩ := compiles.exists_child member
    exact ih compiles

/-- Every part of a compiled expression is a constant or what a part of the source compiles to. -/
theorem of_part [ZoneTable] (compiles : CompilesInside outer expr expr')
    (has : expr'.HasPart part') :
    part'.isLiteral = true ∨ ∃ part, expr.HasPart part ∧ CompilesInside outer part part' := by
  obtain ⟨bound, binds, valid, validates, optimized⟩ := compiles
  obtain ⟨root, resolved⟩ := binds.exists_resolved
  have settled := (validates.settled resolved).imp fun _ => And.left
  rcases optimized.of_part settled has with literal | ⟨validPart, hasValid, optimizedPart⟩
  · exact .inl literal
  rcases validates.of_part resolved hasValid with
    literal | ⟨boundPart, hasBound, validatesPart⟩
  · exact .inl (optimizedPart.eq_of_isLiteral literal ▸ literal)
  rcases binds.of_part hasBound with literal | ⟨part, hasPart, bindsPart⟩
  · obtain rfl := validatesPart.eq_of_isLiteral literal
    exact .inl (optimizedPart.eq_of_isLiteral literal ▸ literal)
  · exact .inr ⟨part, hasPart, boundPart, bindsPart, validPart, validatesPart, optimizedPart⟩

end Expr.CompilesInside

end EventQuery
