import EventQuery.Calendar.Places
import EventQuery.Proofs.CanonicalText
import EventQuery.Proofs.DeclaredPoints
import EventQuery.Proofs.KnownValues
import EventQuery.Proofs.Stages
import EventQuery.Proofs.Validation

/-!
The text of a compiled expression. Binding, validation and optimization keep an expression
in words, and when they are through no minus and no cast stands on a constant, so that the
text reads back to what was compiled.
-/
namespace EventQuery

open Reading Outcome
open Reading.ExpressionReader (castNode)

/-! ### Names of relations -/

/-- The relation and those inside it have words for names. -/
inductive RelationDeclaration.Worded : RelationDeclaration → Prop where
  | mk {name fields relations} (word : IsWord name) (below : ∀ relation ∈ relations, Worded relation) :
    Worded (.mk name fields relations)

namespace Schema

variable {schema : Schema}

/-- The root and all relations are called by words. -/
def Worded (schema : Schema) : Prop :=
  ∀ path, path = schema.root ∨ path ∈ schema.paths ∧ path.isRelation = true → IsName path.dotted

theorem isWord_of_located {declaration : RelationDeclaration} (words : declaration.Worded) :
    ∀ outer, (∀ word ∈ outer, IsWord word) → ∀ segments inner,
      (segments, inner) ∈ declaration.located outer → ∀ word ∈ segments, IsWord word := by
  induction words with
  | @mk name fields relations isWord _ ih =>
    intro outer around segments inner listed
    have upTo : ∀ word ∈ outer ++ [name], IsWord word := by
      simpa [or_imp, forall_and] using ⟨around, isWord⟩
    rcases RelationDeclaration.mem_located.1 listed with ⟨rfl, -⟩ | ⟨relation, member, listed⟩
    · exact upTo
    · exact ih relation member _ upTo _ _ listed

/-- A declaration in words gives a schema in words. -/
theorem worded_of_declaration {declaration : RelationDeclaration}
    (built : ofDeclaration declaration = .ok schema) (words : declaration.Worded) : schema.Worded := by
  obtain ⟨-, rfl⟩ := ofDeclaration_eq_ok.1 built
  intro path
  rintro (rfl | ⟨listed, isRelation⟩)
  · cases words with | mk word => ?_
    exact ⟨[_], List.cons_ne_nil _ _, List.forall_mem_singleton.2 word, rfl⟩
  · obtain ⟨segments, relation, located, rfl | ⟨_, _, rfl⟩⟩ :=
      RelationDeclaration.mem_listing.1 listed
    · have all := isWord_of_located words [] (List.forall_mem_nil _) _ _ located
      have longer := (RelationDeclaration.prefix_of_located _ _ _ _ located).length_le
      refine ⟨segments, fun absent => ?_, all, rfl⟩
      rw [absent] at longer
      cases longer
    · cases isRelation

end Schema

theorem Context.root_start (schema : Schema) (settings : Settings) (registry : Registry) :
    (start schema settings registry).symbols.root = schema.root := by
  have defined (functions : List Function) (symbols : Symbols) (same : symbols.root = schema.root) :
      (functions.foldl (fun symbols function =>
        (symbols.define? function.name (.function function)).getD symbols) symbols).root =
          schema.root := by
    induction functions generalizing symbols with
    | nil => exact same
    | cons function rest ih =>
      apply ih
      cases added : symbols.current.define? function.name (.function function) with
      | none => simpa [Symbols.define?, added] using same
      | some scope =>
        have kept : scope.root = symbols.current.root := by
          unfold Scope.define? at added
          split at added <;> cases added
          rfl
        simpa [Symbols.define?, added, Symbols.root, kept] using same
  exact defined registry.functions (.empty schema.root) rfl

/-! ### Nodes in words -/

namespace Expr.Spelled

/-- A part in words becomes a part in words, and a path stays a path of its name. -/
structure Turns (child child' : Expr) : Prop where
  spelled : child.Spelled → child'.Spelled
  path : ∀ span name known, child = .value (.path span name known) →
    ∃ found, child' = .value (.path span name found)

private theorem of_turnedAll {nodes nodes' : List ValueExpr}
    (spelled : ∀ node ∈ nodes, (Expr.value node).Spelled)
    (all : List.Forall₂ (fun node node' => Turns (.value node) (.value node')) nodes nodes') :
    ∀ node' ∈ nodes', (Expr.value node').Spelled := by
  intro node' member
  obtain ⟨node, listed, turns⟩ := exists_of_mem_right all member
  exact turns.spelled (spelled node listed)

private theorem of_turned {α : Type} {make : α → Expr} {part part' : Option α}
    (spelled : ∀ node, part = some node → (make node).Spelled)
    (related : Option.Rel (fun node node' => Turns (make node) (make node')) part part') :
    ∀ node', part' = some node' → (make node').Spelled := by
  rintro node' rfl
  obtain ⟨node, isNode, turns⟩ := exists_of_rel_some related
  exact turns.spelled (spelled node isNode)

/-- A node of the same kind over the parts is in words too, unless it wraps a truth value. -/
theorem of_sameNode {source expr : Expr} (spelled : source.Spelled)
    (same : SameNode Turns source expr)
    (open' : ∀ span place truth, expr ≠ .bool (.wrapper span (.constant place (.boolean truth)))) :
    expr.Spelled := by
  cases same
  case leaf => exact spelled
  case reference => exact spelled
  case connective first second =>
    cases spelled with | connective left right => ?_
    exact .connective (first.spelled left) (second.spelled right)
  case not only =>
    cases spelled with | not operand => ?_
    exact .not (only.spelled operand)
  case comparison first second =>
    cases spelled with | comparison left right => ?_
    exact .comparison (first.spelled left) (second.spelled right)
  case bounds first second third =>
    cases spelled with | bounds value lower upper => ?_
    exact .bounds (first.spelled value) (second.spelled lower) (third.spelled upper)
  case nullTest only =>
    cases spelled with | nullTest operand => ?_
    exact .nullTest (only.spelled operand)
  case inList first others =>
    cases spelled with | inList value candidates => ?_
    exact .inList (first.spelled value) (of_turnedAll candidates others)
  case inVector first second =>
    -- the vector is a name, which need not be one that starts an expression
    cases spelled with | inVector value named => ?_
    obtain ⟨found, same⟩ := second.path _ _ _ rfl
    obtain rfl := Expr.value.inj same
    exact .inVector (first.spelled value) named
  case wrapper only =>
    cases spelled with | wrapper value => ?_
    refine .wrapper (only.spelled value) fun place truth same => ?_
    exact open' _ place truth (by rw [same])
  case arithmetic first second =>
    cases spelled with | arithmetic left right => ?_
    exact .arithmetic (first.spelled left) (second.spelled right)
  case unary only =>
    cases spelled with | unary operand => ?_
    exact .unary (only.spelled operand)
  case cast only =>
    cases spelled with | cast operand => ?_
    exact .cast (only.spelled operand)
  case conversion only =>
    cases spelled with | conversion operand => ?_
    exact .conversion (only.spelled operand)
  case quantum only =>
    cases spelled with | quantum operand => ?_
    exact .quantum (only.spelled operand)
  case call all =>
    cases spelled with | call named starts free arguments => ?_
    exact .call named starts free (of_turnedAll arguments all)
  case aggregation counted only met lasting =>
    cases spelled with | aggregation top count target condition named quanta => ?_
    refine .aggregation ?_ (of_turned count counted) (only.spelled target)
      (of_turned condition met) named (of_turned quanta lasting)
    rw [← top]
    cases counted <;> rfl

end Expr.Spelled

/-! ### Binding -/

/-- Binding makes no constants. -/
theorem Bind.eq_constant {context : Context} {node : ValueExpr} {span : Span} {value : Constant}
    (bound : node.bind context = .ok (.constant span value)) : node = .constant span value := by
  cases node
  case constant => exact pure_eq_ok.1 bound
  case now => cases bound
  case aggregation =>
    obtain ⟨_, _, _, _, _, _, _, _, _, _, same⟩ := aggregation_iff.1 bound
    cases same
  case call =>
    obtain ⟨_, -, ⟨_, -, same⟩ | ⟨-, _, _, -, -, same⟩⟩ := call_iff.1 bound <;> cases same
  all_goals simp [ValueExpr.bind] at bound

theorem Bind.exists_path {context : Context} {span : Span} {name : String} {known : Option Path}
    {expr : Expr} (bound : Expr.BindsIn context (.value (.path span name known)) expr) :
    ∃ found, expr = .value (.path span name found) := by
  cases bound with | value bound => ?_
  simp only [ValueExpr.bind, bind_eq_ok, pure_eq_ok] at bound
  obtain ⟨path, -, rfl⟩ := bound
  exact ⟨some path, rfl⟩

namespace Expr.Spelled

/-- A bound expression is in words like its source: an aggregation without a scope gets the
name of a relation. -/
theorem bind {source expr : Expr} {context : Context} (spelled : source.Spelled)
    (worded : context.schema.Worded) (root : IsName context.symbols.root.dotted)
    (bound : BindsIn context source expr) : expr.Spelled := by
  induction source using Expr.byChildren generalizing context expr with
  | node source ih =>
    by_cases plain : source.isPlain = true
    · have same := (BindsIn.sameNode_iff plain).1 bound
      have turned : SameNode Turns source expr := same.imp fun child member child' bound =>
        ⟨fun spelled => ih child member spelled worded root bound, by
          rintro span name known rfl
          exact Bind.exists_path bound⟩
      refine spelled.of_sameNode turned ?_
      rintro span place truth rfl
      cases same with
      | leaf childless => cases childless
      | wrapper only =>
        cases spelled with | wrapper _ open' => ?_
        exact open' place truth (Bind.eq_constant (BindsIn.value_iff.1 only))
    cases spelled <;> first | exact absurd rfl plain | skip
    case boundary named =>
      cases bound with | bool bound => ?_
      simp only [BoolExpr.bind, bind_eq_ok, pure_eq_ok] at bound
      obtain ⟨path, -, rfl⟩ := bound
      exact .boundary named
    case stepReference =>
      cases bound with | bool bound => ?_
      simp only [BoolExpr.bind, bind_eq_ok, pure_eq_ok] at bound
      obtain ⟨_, -, rfl⟩ := bound
      exact .stepReference
    case path named starts =>
      obtain ⟨path, rfl⟩ := Bind.exists_path bound
      exact .path named starts
    case parameter word =>
      cases bound with | value bound => ?_
      simp only [ValueExpr.bind, bind_eq_ok, pure_eq_ok] at bound
      obtain ⟨type, -, rfl⟩ := bound
      exact .parameter word
    case quantum operand =>
      cases bound with | value bound => ?_
      simp only [ValueExpr.bind, bind_eq_ok, pure_eq_ok, Stopped.within_eq_ok] at bound
      obtain ⟨operand', only, rfl⟩ := bound
      exact .quantum (ih _ (List.mem_singleton_self _) operand worded root (.value only))
    case call named starts free arguments =>
      cases bound with | value bound => ?_
      obtain ⟨known, -, ⟨state, -, rfl⟩ | ⟨-, arguments', state, all, -, rfl⟩⟩ :=
        Bind.call_iff.1 bound
      · exact .call named starts free arguments
      · refine .call named starts free fun node' member => ?_
        obtain ⟨node, listed, bound⟩ := exists_of_mem_right all member
        exact ih _ (List.mem_map_of_mem listed) (arguments node listed) worded root (.value bound)
    case aggregation scope _ _ top counts target conditions named quantas =>
      cases bound with | value bound => ?_
      obtain ⟨path, count', target', condition', quanta', found, counted, only, met, lasting, rfl⟩ :=
        Bind.aggregation_iff.1 bound
      have inner : IsName (context.inScope (some path)).symbols.root.dotted :=
        worded path (.inr ⟨Bind.mem_of_relation found, Bind.isRelation_of_relation found⟩)
      have same : (context.inScope (some path)).schema.Worded := worded
      refine .aggregation ?_ ?_ (ih _ (by simp [children, ValueExpr.children]) target worded root
        (.value only)) ?_ ?_ ?_
      · rw [← top]
        cases counted <;> rfl
      · rintro node rfl
        obtain ⟨source, rfl, binds⟩ := exists_of_rel_some counted
        exact ih _ (by simp [children, ValueExpr.children]) (counts source rfl) worded root
          (.value binds)
      · rintro node rfl
        obtain ⟨source, rfl, binds⟩ := exists_of_rel_some met
        exact ih _ (by simp [children, ValueExpr.children]) (conditions source rfl) same inner
          (.bool binds)
      · rintro name ⟨⟩
        cases scope with
        | none => exact root
        | some name => exact named name rfl
      · rintro node rfl
        obtain ⟨found, same', rfl | ⟨source, rfl, binds⟩⟩ := Bind.exists_of_quantaBinds lasting
        · obtain rfl := Option.some.inj same'
          exact .constant
        · obtain rfl := Option.some.inj same'
          exact ih _ (by simp [children, ValueExpr.children]) (quantas source rfl) same inner
            (.value binds)

end Expr.Spelled

/-! ### Validation -/

/-- Validation makes no constants where there were none. -/
theorem Validate.eq_constant [ZoneTable] {node : ValueExpr} {span : Span} {value : Constant}
    (valid : node.validate = .ok (.constant span value)) : node = .constant span value := by
  cases node
  case constant => exact pure_eq_ok.1 valid
  case path => cases valid
  case parameter => cases valid
  case now => cases valid
  case aggregation =>
    obtain ⟨_, _, _, _, _, _, _, _, _, same⟩ := aggregation_eq_ok valid
    cases same
  case call span name arguments binding =>
    cases binding with
    | none => cases valid
    | some binding =>
      simp only [ValueExpr.validate] at valid
      split at valid <;> simp at valid
  case quantum span taken operand zone known => cases zone <;> simp [ValueExpr.validate] at valid
  all_goals simp [ValueExpr.validate] at valid

namespace Expr.Spelled

private theorem of_isCount {count : Option ValueExpr} (settled : Validate.IsCount count) :
    ∀ node, count = some node → (Expr.value node).Spelled := by
  intro node found
  obtain ⟨span, value, rfl, -⟩ := settled node found
  exact .constant

/-- A validated expression is in words like its source. -/
theorem validate [ZoneTable] {source expr : Expr} (spelled : source.Spelled)
    (valid : ValidatesTo source expr) :
    expr.Spelled := by
  induction source using Expr.byChildren generalizing expr with
  | node source ih =>
    by_cases plain : source.isPlain = true
    · have same := (ValidatesTo.sameNode_iff plain).1 valid
      have turned : SameNode Turns source expr := same.imp fun child member child' valid =>
        ⟨fun spelled => ih child member spelled valid, by
          rintro span name known rfl
          cases valid with | value valid => ?_
          exact ⟨known, congrArg Expr.value (pure_eq_ok.1 valid).symm⟩⟩
      refine spelled.of_sameNode turned ?_
      rintro span place truth rfl
      cases same with
      | leaf childless => cases childless
      | wrapper only =>
        cases spelled with | wrapper _ open' => ?_
        exact open' place truth (Validate.eq_constant (ValidatesTo.value_iff.1 only))
    cases spelled <;> first | exact absurd rfl plain | skip
    case boundary named =>
      cases valid with | bool valid => ?_
      obtain rfl := pure_eq_ok.1 valid
      exact .boundary named
    case stepReference =>
      cases valid with | bool valid => ?_
      obtain rfl := pure_eq_ok.1 valid
      exact .stepReference
    case path named starts =>
      cases valid with | value valid => ?_
      obtain rfl := pure_eq_ok.1 valid
      exact .path named starts
    case parameter word =>
      cases valid with | value valid => ?_
      obtain rfl := pure_eq_ok.1 valid
      exact .parameter word
    case quantum zone _ operand =>
      cases valid with | value valid => ?_
      cases zone <;>
        simp only [ValueExpr.validate, bind_eq_ok, pure_eq_ok, Stopped.within_eq_ok] at valid
      · obtain ⟨operand', only, rfl⟩ := valid
        exact .quantum (ih _ (List.mem_singleton_self _) operand (.value only))
      · obtain ⟨operand', only, _, -, rfl⟩ := valid
        exact .quantum (ih _ (List.mem_singleton_self _) operand (.value only))
    case call binding named starts free arguments =>
      cases valid with | value valid => ?_
      cases binding with
      | none => cases valid
      | some binding =>
        simp only [ValueExpr.validate] at valid
        split at valid
        · simp only [bind_eq_ok, pure_eq_ok, Stopped.within_eq_ok] at valid
          obtain ⟨arguments', all, _, -, rfl⟩ := valid
          refine .call named starts free fun node' member => ?_
          obtain ⟨node, listed, valid⟩ :=
            exists_of_mem_right (Validate.validateAll_eq_ok.1 all) member
          exact ih _ (List.mem_map_of_mem listed) (arguments node listed) (.value valid)
        · obtain rfl := pure_eq_ok.1 valid
          exact .call named starts free arguments
    case aggregation top _ target conditions named _ =>
      cases valid with | value valid => ?_
      obtain ⟨count', target', condition', quanta', counted, has, only, met, lasting, rfl⟩ :=
        Validate.aggregation_eq_ok valid
      refine .aggregation (has.trans top) (of_isCount counted)
        (ih _ (by simp [children, ValueExpr.children]) target (.value only)) ?_ named
        (of_isCount lasting)
      rintro node rfl
      obtain ⟨source, rfl, validates⟩ := exists_of_rel_some met
      exact ih _ (by simp [children, ValueExpr.children]) (conditions source rfl) (.bool validates)

end Expr.Spelled

/-! ### Optimization -/

/-- The expression is in words, and its text stands for nothing else. -/
structure Expr.ReadsBack (expr : Expr) : Prop where
  spelled : expr.Spelled
  same : expr.reread = expr.bare

theorem ValueExpr.eq_constant_of_bare {node : ValueExpr} {span : Span} {value : Constant}
    (same : node.bare = .constant span value) : ∃ place, node = .constant place value := by
  cases node
  case constant place _ =>
    cases same
    exact ⟨place, rfl⟩
  case aggregation =>
    rw [bare_aggregation] at same
    cases same
  all_goals cases same

namespace Expr.ReadsBack

variable {root : Path} {expr expr' mid : Expr}

theorem bool {node : BoolExpr} (reads : ReadsBack (.bool node)) : node.reread = node.bare :=
  Expr.bool.inj reads.same

theorem value {node : ValueExpr} (reads : ReadsBack (.value node)) : node.reread = node.bare :=
  Expr.value.inj reads.same

theorem rereads_eq {nodes : List ValueExpr} (each : ∀ node ∈ nodes, ReadsBack (.value node)) :
    ValueExpr.rereads nodes = ValueExpr.bares nodes := by
  rw [ValueExpr.rereads_eq_map, ValueExpr.bares_eq_map]
  exact List.map_congr_left fun node listed => (each node listed).value

/-- What holds of the parts of a node after optimization. -/
private abbrev Part (child child' : Expr) : Prop :=
  Optimized true child child' ∧ (child.Spelled → child'.ReadsBack)

private theorem of_parts {nodes nodes' : List ValueExpr}
    (spelled : ∀ node ∈ nodes, (Expr.value node).Spelled)
    (all : List.Forall₂ (fun node node' => Part (.value node) (.value node')) nodes nodes') :
    ∀ node' ∈ nodes', ReadsBack (.value node') := by
  intro node' member
  obtain ⟨node, listed, part⟩ := exists_of_mem_right all member
  exact part.2 (spelled node listed)

private theorem of_part {α : Type} {make : α → Expr} {part part' : Option α}
    (spelled : ∀ node, part = some node → (make node).Spelled)
    (related : Option.Rel (fun node node' => Part (make node) (make node')) part part') :
    ∀ node', part' = some node' → ReadsBack (make node') := by
  rintro node' rfl
  obtain ⟨node, isNode, reads⟩ := exists_of_rel_some related
  exact reads.2 (spelled node isNode)

private theorem Part.turns {child child' : Expr} (part : Part child child') :
    Spelled.Turns child child' := by
  refine ⟨fun spelled => (part.2 spelled).spelled, ?_⟩
  rintro span name known rfl
  cases child' with
  | bool node => cases part.1
  | value node => exact ⟨known, congrArg Expr.value (Except.ok.inj (Optimized.value_iff.1 part.1)).symm⟩

/-- A node that stays, after its children: it is no constant, so no minus and no cast in it
stands on one. -/
theorem of_sameNode (spelled : expr.Spelled) (resolved : expr.Resolved root)
    (same : SameNode Part expr mid) (unknown : mid.isConstant = true → mid.isLiteral = true) :
    mid.ReadsBack := by
  refine ⟨spelled.of_sameNode (same.imp fun _ _ _ part => part.turns) ?_, ?_⟩
  · rintro span place truth rfl
    cases unknown rfl
  cases same
  case leaf childless =>
    cases spelled <;>
      simp_all [Expr.children, BoolExpr.children, ValueExpr.children, Expr.reread, Expr.bare,
        BoolExpr.reread, BoolExpr.bare, ValueExpr.reread, ValueExpr.bare, ValueExpr.rereads,
        ValueExpr.bares]
  case reference hidden =>
    -- the argument of a call that asks about a statement is its name
    obtain ⟨known, isKnown, fits⟩ := resolved
    obtain rfl := Option.some.inj isKnown
    obtain ⟨reference, asks⟩ := Optimize.exists_about hidden
    obtain ⟨span, text, rfl, -⟩ := fits.asked reference asks
    rfl
  case connective first second =>
    cases spelled with | connective left right => ?_
    simp [reread, bare, BoolExpr.reread, BoolExpr.bare, (first.2 left).bool, (second.2 right).bool]
  case not only =>
    cases spelled with | not operand => ?_
    simp [reread, bare, BoolExpr.reread, BoolExpr.bare, (only.2 operand).bool]
  case comparison first second =>
    cases spelled with | comparison left right => ?_
    simp [reread, bare, BoolExpr.reread, BoolExpr.bare, (first.2 left).value, (second.2 right).value]
  case bounds first second third =>
    cases spelled with | bounds value lower upper => ?_
    simp [reread, bare, BoolExpr.reread, BoolExpr.bare, (first.2 value).value,
      (second.2 lower).value, (third.2 upper).value]
  case nullTest only =>
    cases spelled with | nullTest operand => ?_
    simp [reread, bare, BoolExpr.reread, BoolExpr.bare, (only.2 operand).value]
  case inList first others =>
    cases spelled with | inList value candidates => ?_
    simp [reread, bare, BoolExpr.reread, BoolExpr.bare, (first.2 value).value,
      rereads_eq (of_parts candidates others)]
  case inVector first second =>
    cases spelled with | inVector value named => ?_
    obtain rfl := Except.ok.inj (Optimized.value_iff.1 second.1)
    simp [reread, bare, BoolExpr.reread, BoolExpr.bare, (first.2 value).value]
  case wrapper only =>
    cases spelled with | wrapper value => ?_
    simp [reread, bare, BoolExpr.reread, BoolExpr.bare, (only.2 value).value]
  case arithmetic first second =>
    cases spelled with | arithmetic left right => ?_
    simp [reread, bare, ValueExpr.reread, ValueExpr.bare, (first.2 left).value,
      (second.2 right).value]
  case unary span sign _ node only =>
    cases spelled with | unary operand => ?_
    have plain : ValueExpr.negated? sign node = none := by
      cases known : ValueExpr.negated? sign node with
      | none => rfl
      | some value =>
        obtain ⟨-, place, literal, rfl, -⟩ := ValueExpr.exists_of_negated? known
        cases unknown rfl
    simp [reread, bare, ValueExpr.reread, ValueExpr.bare, plain, (only.2 operand).value]
  case cast span target _ node only =>
    cases spelled with | cast operand => ?_
    have plain : castNode .none target node.bare = .cast .none target node.bare := by
      unfold castNode
      split
      · obtain ⟨place, rfl⟩ := ValueExpr.eq_constant_of_bare ‹_›
        cases unknown rfl
      · rfl
    simp [reread, bare, ValueExpr.reread, ValueExpr.bare, plain, (only.2 operand).value]
  case conversion only =>
    cases spelled with | conversion operand => ?_
    simp [reread, bare, ValueExpr.reread, ValueExpr.bare, (only.2 operand).value]
  case quantum only =>
    cases spelled with | quantum operand => ?_
    simp [reread, bare, ValueExpr.reread, ValueExpr.bare, (only.2 operand).value]
  case call all =>
    cases spelled with | call named starts free arguments => ?_
    simp [reread, bare, ValueExpr.reread, ValueExpr.bare, rereads_eq (of_parts arguments all)]
  case aggregation counted only met lasting =>
    cases spelled with | aggregation top count target condition named quanta => ?_
    rw [reread, bare, ValueExpr.reread_aggregation, ValueExpr.bare_aggregation,
      (only.2 target).value,
      Option.map_congr fun node found => (of_part count counted node found).value,
      Option.map_congr fun node found => (of_part condition met node found).bool,
      Option.map_congr fun node found => (of_part quanta lasting node found).value]

end Expr.ReadsBack

/-- The text of an optimized expression stands for nothing else. -/
theorem Optimized.readsBack {root : Path} {expr expr' : Expr}
    (optimized : Optimized true expr expr')
    (spelled : expr.Spelled) (resolved : expr.Everywhere (Expr.Resolved root)) :
    expr'.ReadsBack := by
  induction expr using Expr.byChildren generalizing expr' with
  | node expr ih =>
    obtain ⟨mid, same, folded⟩ := optimized.inversion
    have below : SameNode Expr.ReadsBack.Part expr mid :=
      same.imp fun child member child' optimized =>
        ⟨optimized, fun spelled => ih child member optimized spelled (resolved.child member)⟩
    cases folded with
    | kept unknown => exact .of_sameNode spelled resolved.here below (unknown rfl)
    | predicate => exact ⟨.truth, rfl⟩
    | value => exact ⟨.constant, rfl⟩
    | absorbed => exact ⟨.truth, rfl⟩
    | second =>
      cases below with
      | leaf childless => cases childless
      | connective first second =>
        cases spelled with | connective left right => ?_
        exact second.2 right
    | first =>
      cases below with
      | leaf childless => cases childless
      | connective first second =>
        cases spelled with | connective left right => ?_
        exact first.2 left
    | doubleNegation =>
      cases below with
      | leaf childless => cases childless
      | not only =>
        cases spelled with | not operand => ?_
        have inner := only.2 operand
        cases inner.spelled with | not spelled => ?_
        exact ⟨spelled, congrArg Expr.bool (BoolExpr.not.inj inner.bool).2⟩

/-! ### Compilation -/

/-- What is compiled of an expression in words has a text that stands for nothing else. -/
theorem Session.readsBack_of_compileExpr [ZoneTable] {session : Session} {expr expr' : Expr}
    (folds : session.config.fold = true) (worded : session.schema.Worded) (spelled : expr.Spelled)
    (compiles : session.compileExpr expr = .ok expr') : expr'.ReadsBack := by
  obtain ⟨-, settings, -, bound, binds, valid, point, validates, optimizes⟩ :=
    Session.compileExpr_eq_ok.1 compiles
  have root : IsName (session.context settings).symbols.root.dotted := by
    rw [Session.context, Context.root_start]
    exact worded _ (.inl rfl)
  have boundIn : Expr.BindsIn (session.context settings) expr bound := by
    cases expr with
    | bool node =>
      obtain ⟨_, bound, rfl⟩ := by simpa [Expr.bind] using binds
      exact .bool bound
    | value node =>
      obtain ⟨_, bound, rfl⟩ := by simpa [Expr.bind] using binds
      exact .value bound
  obtain ⟨validatesTo, -, -⟩ := Expr.validate_eq_ok validates
  have bindsTo : Expr.BindsTo session.schema.root expr bound := ⟨_, rfl, binds⟩
  have resolved := (validatesTo.settled bindsTo.resolved).imp fun _ both => both.1
  rw [folds] at optimizes
  exact Optimized.readsBack optimizes ((spelled.bind worded root boundIn).validate validatesTo) resolved

theorem Session.exists_bool_of_compileExpr [ZoneTable] {session : Session} {source : BoolExpr}
    {expr : Expr}
    (compiles : session.compileExpr (.bool source) = .ok expr) : ∃ node, expr = .bool node := by
  obtain ⟨-, _, -, bound, binds, valid, _, validates, optimizes⟩ :=
    Session.compileExpr_eq_ok.1 compiles
  simp only [Expr.bind, bind_eq_ok, pure_eq_ok] at binds
  obtain ⟨_, -, rfl⟩ := binds
  simp only [Expr.validate, bind_eq_ok, pure_eq_ok, Prod.mk.injEq] at validates
  obtain ⟨_, -, rfl, -⟩ := validates
  obtain ⟨node, -, rfl⟩ := Expr.optimize_bool.1 optimizes
  exact ⟨node, rfl⟩

theorem Session.exists_value_of_compileExpr [ZoneTable] {session : Session} {source : ValueExpr}
    {expr : Expr}
    (compiles : session.compileExpr (.value source) = .ok expr) : ∃ node, expr = .value node := by
  obtain ⟨-, _, -, bound, binds, valid, _, validates, optimizes⟩ :=
    Session.compileExpr_eq_ok.1 compiles
  simp only [Expr.bind, bind_eq_ok, pure_eq_ok] at binds
  obtain ⟨_, -, rfl⟩ := binds
  simp only [Expr.validate, bind_eq_ok, pure_eq_ok, Prod.mk.injEq] at validates
  obtain ⟨_, -, rfl, -⟩ := validates
  obtain ⟨node, -, rfl⟩ := Expr.optimize_value.1 optimizes
  exact ⟨node, rfl⟩

/-- Two levels of the reader fit into every pair of parentheses. -/
theorem Expr.Spelled.exists_readExpr {expr : Expr} (spelled : expr.Spelled)
    (shallow : Text.nesting expr.text ≤ 127) : ∃ x, readExpr expr.text = .ok x ∧ expr.ReadAs x := by
  obtain ⟨height, nests, enough⟩ := spelled.nested
  rw [nests.nesting_eq] at shallow
  apply spelled.reads_text.1
  rw [nestingLimit]
  omega

/-- The text of a compiled expression reads back to what was compiled, up to spans and to what
binding found out, if its parentheses are nested at most 127 deep. -/
theorem readBack_of_compileExpr [ZoneTable] {session : Session} (folds : session.config.fold = true)
    (worded : session.schema.Worded) :
    (∀ text source expr, readBool text = .ok source → session.compileExpr (.bool source) = .ok expr →
      Text.nesting expr.text ≤ 127 → ∃ node, expr = .bool node ∧
        ∃ found, readBool expr.text = .ok found ∧ found.bare = node.bare) ∧
    ∀ text source expr, readValue text = .ok source → session.compileExpr (.value source) = .ok expr →
      Text.nesting expr.text ≤ 127 → ∃ node, expr = .value node ∧
        ∃ found, readValue expr.text = .ok found ∧ found.bare = node.bare := by
  constructor
  · intro text source expr read compiles shallow
    obtain ⟨x, isRead, same⟩ := bind_eq_ok.1 read
    obtain rfl := pure_eq_ok.1 same
    have spelled := Reading.ExpressionReader.spelled_asPredicate (Expr.spelled_of_readExpr isRead)
    have reads := Session.readsBack_of_compileExpr folds worded spelled compiles
    obtain ⟨node, rfl⟩ := Session.exists_bool_of_compileExpr compiles
    obtain ⟨found, again, good⟩ := reads.spelled.exists_readExpr shallow
    exact ⟨node, rfl, asPredicate found, bind_eq_ok.2 ⟨found, again, rfl⟩, good.trans reads.bool⟩
  · intro text source expr read compiles shallow
    obtain ⟨x, isRead, same⟩ := bind_eq_ok.1 read
    have spelled := Reading.ExpressionReader.spelled_asValue (Expr.spelled_of_readExpr isRead) same
    have reads := Session.readsBack_of_compileExpr folds worded spelled compiles
    obtain ⟨node, rfl⟩ := Session.exists_value_of_compileExpr compiles
    obtain ⟨found, again, good⟩ := reads.spelled.exists_readExpr shallow
    cases found with
    | bool => cases good
    | value found =>
      exact ⟨node, rfl, found, bind_eq_ok.2 ⟨.value found, again, rfl⟩,
        (Expr.value.inj good).trans reads.value⟩

/-! ### Schemas with and without words -/

/-- The text of what is compiled of the value with this text. -/
private def compiledText? [ZoneTable] (session : Session) (text : String) : Option String := do
  let source ← (readValue text).toOption
  let expr ← (session.compileExpr (.value source)).toOption
  return expr.text

private theorem compiledText?_eq_some [ZoneTable] {session : Session} {text result : String}
    (known : compiledText? session text = some result) :
    ∃ source expr, readValue text = .ok source ∧ session.compileExpr (.value source) = .ok expr ∧
      expr.text = result := by
  unfold compiledText? at known
  cases read : readValue text with
  | error => simp [read, Except.toOption] at known
  | ok source =>
    cases compiles : session.compileExpr (.value source) with
    | error => simp [read, compiles, Except.toOption] at known
    | ok expr => exact ⟨source, expr, rfl, compiles, by simpa [read, compiles, Except.toOption] using known⟩

/-- Users with their visits, and the hits of these. -/
private def declaredHits (visits : String) : RelationDeclaration :=
  .mk "user" [] [.mk visits [] [.mk "hits" [⟨"id", .long, false, false⟩] []]]

private def hits (visits : String) : Schema :=
  ⟨.relation ["user"], [.relation ["user"], .relation ["user", visits],
    .relation ["user", visits, "hits"], .field ["user", visits, "hits"] "id" ⟨.long, false, false⟩]⟩

open Places

/-- Hits of users that have several: the scope of the inner count is filled in. -/
theorem readBack_of_compileExpr_hits :
    ∃ source expr, readValue "COUNT(hits.id WHERE COUNT(hits.id) > 2 - 1 SCOPE hits)" = .ok source ∧
      (Session.ofSchema (hits "visits")).compileExpr (.value source) = .ok expr ∧
      expr.text = "COUNT(hits.id WHERE (COUNT(hits.id SCOPE user.visits.hits QUANTA 1) > " ++
        "CAST(1 AS LONG)) SCOPE hits QUANTA 1)" ∧
      ∃ node, expr = .value node ∧
        ∃ found, readValue expr.text = .ok found ∧ found.bare = node.bare := by
  have built : Schema.ofDeclaration (declaredHits "visits") = .ok (hits "visits") := rfl
  have words : (declaredHits "visits").Worded := by
    refine .mk (by decide) (List.forall_mem_singleton.2 (.mk (by decide) ?_))
    exact List.forall_mem_singleton.2 (.mk (by decide) (List.forall_mem_nil _))
  have worded := Schema.worded_of_declaration built words
  have known : compiledText? (.ofSchema (hits "visits"))
      "COUNT(hits.id WHERE COUNT(hits.id) > 2 - 1 SCOPE hits)" =
      some ("COUNT(hits.id WHERE (COUNT(hits.id SCOPE user.visits.hits QUANTA 1) > " ++
        "CAST(1 AS LONG)) SCOPE hits QUANTA 1)") := by
    decide +kernel
  obtain ⟨source, expr, read, compiles, text⟩ := compiledText?_eq_some known
  have shallow : Text.nesting expr.text ≤ 127 := by
    rw [text]
    decide +kernel
  exact ⟨source, expr, read, compiles, text,
    (readBack_of_compileExpr rfl worded).2 _ source expr read compiles shallow⟩

/-- The root is a word, but the name of a relation inside it is not, and gets into the text. -/
theorem not_readBack_of_compileExpr :
    Schema.ofDeclaration (declaredHits "web visits") = .ok (hits "web visits") ∧
      IsName (hits "web visits").root.dotted ∧
      ∃ source expr, readValue "COUNT(hits.id WHERE COUNT(hits.id) > 2 - 1 SCOPE hits)" = .ok source ∧
        (Session.ofSchema (hits "web visits")).compileExpr (.value source) = .ok expr ∧
        Text.nesting expr.text ≤ 127 ∧ ∃ cause, readValue expr.text = .error cause := by
  have known : compiledText? (.ofSchema (hits "web visits"))
      "COUNT(hits.id WHERE COUNT(hits.id) > 2 - 1 SCOPE hits)" =
      some ("COUNT(hits.id WHERE (COUNT(hits.id SCOPE user.web visits.hits QUANTA 1) > " ++
        "CAST(1 AS LONG)) SCOPE hits QUANTA 1)") := by
    decide +kernel
  obtain ⟨source, expr, read, compiles, text⟩ := compiledText?_eq_some known
  refine ⟨rfl, ⟨["user"], by decide, by decide, rfl⟩, source, expr, read, compiles, ?_⟩
  rw [text]
  refine ⟨by decide +kernel, ?_⟩
  have fails : (readValue ("COUNT(hits.id WHERE (COUNT(hits.id SCOPE user.web visits.hits QUANTA 1) > " ++
      "CAST(1 AS LONG)) SCOPE hits QUANTA 1)")).isOk = false := by
    decide +kernel
  cases again : readValue ("COUNT(hits.id WHERE (COUNT(hits.id SCOPE user.web visits.hits QUANTA 1) > " ++
      "CAST(1 AS LONG)) SCOPE hits QUANTA 1)") with
  | ok found =>
    rw [again] at fails
    cases fails
  | error cause => exact ⟨cause, rfl⟩

end EventQuery
