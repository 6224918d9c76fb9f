import EventQuery.Calendar.Places
import EventQuery.Proofs.Slots

/-!
Values that have to be known. Limits and durations are folded as soon as they are bound, without
being validated; the quanta of aggregations and the counts of `TOP` are folded after they are
validated, but their types are not looked at. So what is kept of a value need not be what it
compiles to by itself. Here it is said exactly when it is.
-/
namespace EventQuery

open Outcome

/-! ### What is kept -/

/-- What is stored for a constant; a duration is a `LONG`. -/
def Role.stored : Role → Constant → Except ConstantError Constant
  | .duration, constant => constant.cast .long
  | _, constant => .ok constant

/-- The constant is what is kept in the place. -/
def Role.Keeps (role : Role) (constant : Constant) (kept : ValueExpr) : Prop :=
  ∃ span stored, role.stored constant = .ok stored ∧ kept = .constant span stored

/-- By itself the value compiles to a constant, and this is the one that is kept. -/
def Session.Agrees [ZoneTable] (session : Session) (role : Role) (node kept : ValueExpr) : Prop :=
  ∃ constant, (∃ span, session.compileExpr (.value node) = .ok (.value (.constant span constant))) ∧
    role.Keeps constant kept

/-- An integral number that is converted to `LONG` stays the same. -/
theorem Constant.cast_long {constant : Constant} {number : Int}
    (integral : constant.type.isIntegral = true) (isNumber : constant.integral? = some number) :
    constant.cast .long = .ok (.long (Int64.ofInt number)) := by
  have word := Number.Width.int64?_eq_some_iff.2 (Validate.toInt_ofInt_of_integral? isNumber)
  cases constant <;> cases integral <;> cases isNumber <;>
    simp [cast, type, ofIntegral, word, orOverflow]

namespace ValueExpr

variable {node kept : ValueExpr}

theorem FoldsToCount.keeps {least : Int} (folds : node.FoldsToCount least kept) :
    node.isConstant = true ∧
      ∃ constant, node.reduce = .ok constant ∧ Role.count.Keeps constant kept := by
  obtain ⟨what, count, folds⟩ := folds
  obtain ⟨constant, known, found, -, -, -, rfl⟩ := Validate.foldCount_eq_ok.1 folds
  exact ⟨known, constant, found, _, constant, rfl, rfl⟩

theorem FoldsToDuration.keeps (folds : node.FoldsToDuration kept) :
    node.isConstant = true ∧
      ∃ constant, node.reduce = .ok constant ∧ Role.duration.Keeps constant kept := by
  obtain ⟨what, folds⟩ := folds
  obtain ⟨constant, number, known, found, integral, isNumber, -, rfl⟩ :=
    Validate.foldDuration_eq_ok.1 folds
  exact ⟨known, constant, found, _, _, Constant.cast_long integral isNumber, rfl⟩

end ValueExpr

/-! ### Limits and durations -/

/-- What is kept of a value that is folded without being validated. -/
structure Session.KeptUnchecked [ZoneTable] (session : Session) (role : Role)
    (node bound kept : ValueExpr) : Prop where
  folds : ∃ constant, bound.reduce = .ok constant ∧ role.Keeps constant kept
  /-- It is what the value compiles to by itself exactly if the value passes the checks and does
  not reduce to something else after them. -/
  agrees : session.Agrees role node kept ↔ ∃ valid point constant,
    bound.checked = .ok (valid, point) ∧ valid.reduce = .ok constant ∧ role.Keeps constant kept
  /-- A value that names no time zone only has to pass the checks. -/
  zoneless : (Expr.value bound).Everywhere Expr.NamesNoZone →
    (session.Agrees role node kept ↔ ∃ valid point, bound.checked = .ok (valid, point))

/-! ### Counts of aggregations -/

/-- What is kept of a value that is validated and then folded: what it compiles to by itself,
exactly if its types are right too. -/
structure Session.KeptChecked [ZoneTable] (session : Session) (node bound kept : ValueExpr) :
    Prop where
  folds : ∃ valid constant, bound.validate = .ok valid ∧ valid.reduce = .ok constant ∧
    Role.count.Keeps constant kept
  agrees : session.Agrees .count node kept ↔ ∃ valid point, bound.checked = .ok (valid, point)

namespace Session

variable [ZoneTable] {session : Session} {settings : Settings} {role : Role}
  {node bound kept : ValueExpr}

section Known

variable (folds : session.config.fold = true) (configured : session.config.settings = .ok settings)
  (shallow : Visit.checkDepth session.config.maxDepth (Visit.ofExpr (.value node)) = .ok ())
  (binds : node.bind (session.context settings) = .ok bound) (known : bound.isConstant = true)

include folds configured shallow binds known

theorem agrees_iff : session.Agrees role node kept ↔ ∃ valid point constant,
    bound.checked = .ok (valid, point) ∧ valid.reduce = .ok constant ∧
      role.Keeps constant kept := by
  simp only [Agrees, compileExpr_iff_checked folds configured shallow binds known]
  constructor
  · rintro ⟨constant, ⟨valid, point, checks, found⟩, keeps⟩
    exact ⟨valid, point, constant, checks, found, keeps⟩
  · rintro ⟨valid, point, constant, checks, found, keeps⟩
    exact ⟨constant, ⟨valid, point, checks, found⟩, keeps⟩

theorem keptUnchecked (found : ∃ constant, bound.reduce = .ok constant ∧ role.Keeps constant kept) :
    session.KeptUnchecked role node bound kept where
  folds := found
  agrees := agrees_iff folds configured shallow binds known
  zoneless zoneless := by
    rw [agrees_iff folds configured shallow binds known]
    constructor
    · rintro ⟨valid, point, -, checks, -⟩
      exact ⟨valid, point, checks⟩
    · rintro ⟨valid, point, checks⟩
      obtain ⟨constant, found, keeps⟩ := found
      have validates := (ValueExpr.checked_eq_ok.1 checks).1
      obtain rfl := Expr.ValidatesTo.eq_of_namesNoZone validates known zoneless
      exact ⟨_, point, constant, checks, found, keeps⟩

theorem keptChecked {valid : ValueExpr} (validates : bound.validate = .ok valid)
    (found : ∃ constant, valid.reduce = .ok constant ∧ Role.count.Keeps constant kept) :
    session.KeptChecked node bound kept := by
  obtain ⟨constant, found, keeps⟩ := found
  refine ⟨⟨valid, constant, validates, found, keeps⟩, ?_⟩
  rw [agrees_iff folds configured shallow binds known]
  constructor
  · rintro ⟨valid, point, -, checks, -⟩
    exact ⟨valid, point, checks⟩
  · rintro ⟨valid', point, checks⟩
    have validates' := (ValueExpr.checked_eq_ok.1 checks).1
    obtain rfl := Except.ok.inj (validates.symm.trans validates')
    exact ⟨valid, point, constant, checks, found, keeps⟩

end Known

/-! ### Places -/

/-- What is kept of the counts of an aggregation, if the expression is one. -/
def CountsKept (session : Session) (context : Context) : Expr → Expr → Prop
  | .value (.aggregation _ _ count _ _ _ quanta _),
    .value (.aggregation _ _ count' _ _ _ quanta' _) =>
    Option.Rel (fun node kept => ∃ bound, node.bind context = .ok bound ∧
      session.KeptChecked node bound kept) count count' ∧
    ∀ node, quanta = some node → ∃ kept, quanta' = some kept ∧ ∃ bound,
      node.bind context = .ok bound ∧ session.KeptChecked node bound kept
  | .value (.aggregation ..), _ => False
  | _, _ => True

/-- The second value is the first one as a count of an aggregation: bound somewhere inside the
context, validated, folded, and then left alone. -/
private def CountCompiles (outer : Context) (node kept : ValueExpr) : Prop :=
  ∃ inner, outer.Encloses inner ∧ ∃ bound, node.bind inner = .ok bound ∧
    ∃ what folded, Validate.validCount bound what = .ok folded ∧
      Optimized true (.value folded) (.value kept)

private theorem counts_of_compilesInside {outer : Context} {span : Span} {op : AggregationOp}
    {count quanta : Option ValueExpr} {target : ValueExpr} {condition : Option BoolExpr}
    {scope : Option String} {scopePath : Option Path} {part' : Expr}
    (compiles : (Expr.value (.aggregation span op count target condition scope quanta
      scopePath)).CompilesInside outer part') :
    ∃ count' target' condition' scope' quanta' scopePath',
      part' = .value (.aggregation span op count' target' condition' scope' quanta' scopePath') ∧
      Option.Rel (CountCompiles outer) count count' ∧
      ∀ node, quanta = some node → ∃ kept, quanta' = some kept ∧ CountCompiles outer node kept := by
  obtain ⟨bound, ⟨inner, encloses, binds⟩, valid, validates, optimizes⟩ := compiles
  cases binds with | value binds => ?_
  obtain ⟨path, _, _, _, _, -, counted, -, -, lasting, rfl⟩ := Bind.aggregation_iff.1 binds
  cases validates with | value validates => ?_
  obtain ⟨_, _, _, _, -, validCounts, -, -, validLasting, rfl⟩ :=
    Validate.aggregation_parts validates
  obtain ⟨mid, same, folded⟩ := optimizes.inversion
  cases same with
  | leaf childless => simp [Expr.children, ValueExpr.children] at childless
  | aggregation keptCounts _ _ keptLasting => ?_
  cases folded with
  | value known => cases known
  | kept => ?_
  refine ⟨_, _, _, _, _, _, rfl, ?_, ?_⟩
  · cases counted with
    | none =>
      cases validCounts
      cases keptCounts
      exact .none
    | some bindsCount =>
      obtain ⟨folded, counts, rfl⟩ := rel_some_iff.1 validCounts
      obtain ⟨kept, stays, rfl⟩ := rel_some_iff.1 keptCounts
      exact .some ⟨inner, encloses, _, bindsCount, _, folded, counts, stays⟩
  · rintro given rfl
    obtain ⟨bound, bindsQuanta, rfl⟩ := Bind.quantaBinds_some.1 lasting
    obtain ⟨folded, counts, rfl⟩ := rel_some_iff.1 validLasting
    obtain ⟨kept, stays, rfl⟩ := rel_some_iff.1 keptLasting
    exact ⟨kept, rfl, _, encloses.inScope _, bound, bindsQuanta, _, folded, counts, stays⟩

section Counts

variable (folds : session.config.fold = true) (configured : session.config.settings = .ok settings)

include folds configured

private theorem keptChecked_of_compiles
    (shallow : Visit.checkDepth session.config.maxDepth (Visit.ofExpr (.value node)) = .ok ())
    (compiles : CountCompiles (session.context settings) node kept) :
    ∃ bound, node.bind (session.context settings) = .ok bound ∧
      session.KeptChecked node bound kept := by
  obtain ⟨inner, encloses, bound, binds, what, folded, counts, stays⟩ := compiles
  obtain ⟨valid, validates, counts⟩ := Validate.exists_of_validCount counts
  have literal : (Expr.value folded).isLiteral = true := by
    obtain ⟨span, value, rfl, -⟩ := counts.isCount
    rfl
  obtain rfl := Expr.value.inj (stays.eq_of_isLiteral literal)
  obtain ⟨knownValid, found⟩ := counts.keeps
  have known := (Expr.ValidatesTo.isConstant_iff (.value validates)).1 knownValid
  have outside := Expr.BindsIn.value_iff.1 ((Expr.BindsIn.value binds).of_known encloses known)
  exact ⟨bound, outside, keptChecked folds configured shallow outside known validates found⟩

/-- The counts of a compiled aggregation are what those of its source compile to by themselves,
if these have the right types. -/
theorem countsKept_of_compilesInside {part part' : Expr}
    (shallow : Visit.checkDepth session.config.maxDepth (Visit.ofExpr part) = .ok ())
    (compiles : part.CompilesInside (session.context settings) part') :
    session.CountsKept (session.context settings) part part' := by
  cases part with
  | bool => trivial
  | value node =>
    cases node
    case aggregation span op count target condition scope quanta scopePath =>
      obtain ⟨_, _, _, _, _, _, rfl, counted, lasting⟩ := counts_of_compilesInside compiles
      have below (given : ValueExpr) (listed : given ∈ count ∨ given ∈ quanta) :
          Visit.checkDepth session.config.maxDepth (Visit.ofExpr (.value given)) = .ok () := by
        refine Visit.checkDepth_part (.within ?_ .whole) shallow
        rcases listed with rfl | rfl <;> simp [Expr.children, ValueExpr.children]
      constructor
      · exact rel_imp_of_mem (fun given listed _ =>
          keptChecked_of_compiles folds configured (below given (.inl listed))) counted
      · intro given listed
        obtain ⟨kept, isKept, compiles⟩ := lasting given listed
        exact ⟨kept, isKept,
          keptChecked_of_compiles folds configured (below given (.inr listed)) compiles⟩
    all_goals trivial

end Counts

/-- What a place of a compiled statement has to do with the same place of its source. In a free
place every aggregation has its counts; in the places for counts and durations the value that
was there is kept unchecked. -/
def InPlace (session : Session) (context : Context) : Role → Expr → Expr → Prop
  | .free, expr, expr' =>
    (∀ part, expr.HasPart part →
      ∃ part', part.CompilesInside context part' ∧ session.CountsKept context part part') ∧
    ∀ part', expr'.HasPart part' → part'.isLiteral = true ∨ ∃ part, expr.HasPart part ∧
      part.CompilesInside context part' ∧ session.CountsKept context part part'
  | role, expr, expr' => ∃ node bound kept, expr = .value node ∧ expr' = .value kept ∧
    node.bind context = .ok bound ∧ session.KeptUnchecked role node bound kept

/-- Every place of the compiled statement has to do with the same place of the source. -/
def InPlaces (session : Session) (context : Context) (source compiled : Statement) : Prop :=
  List.Forall₂ (Slot.Keeps (session.InPlace context)) source.slots compiled.slots

theorem inPlace_of_compiles {expr expr' : Expr} (folds : session.config.fold = true)
    (configured : session.config.settings = .ok settings)
    (shallow : Visit.checkDepth session.config.maxDepth (Visit.ofExpr expr) = .ok ())
    (compiles : role.Compiles (session.context settings) expr expr') :
    session.InPlace (session.context settings) role expr expr' := by
  cases role with
  | free =>
    constructor
    · intro part has
      obtain ⟨part', compiles⟩ := compiles.exists_part has
      have shallow := Visit.checkDepth_part has shallow
      exact ⟨part', compiles, countsKept_of_compilesInside folds configured shallow compiles⟩
    · intro part' has
      refine (compiles.of_part has).imp_right ?_
      rintro ⟨part, has, compiles⟩
      have shallow := Visit.checkDepth_part has shallow
      exact ⟨part, has, compiles, countsKept_of_compilesInside folds configured shallow compiles⟩
  | count =>
    obtain ⟨node, bound, kept, rfl, rfl, ⟨inner, encloses, binds⟩, counts⟩ := compiles
    obtain ⟨known, found⟩ := counts.keeps
    have outside := Expr.BindsIn.value_iff.1 (binds.of_known encloses known)
    exact ⟨node, bound, kept, rfl, rfl, outside,
      keptUnchecked folds configured shallow outside known found⟩
  | duration =>
    obtain ⟨node, bound, kept, rfl, rfl, ⟨inner, encloses, binds⟩, lasts⟩ := compiles
    obtain ⟨known, found⟩ := lasts.keeps
    have outside := Expr.BindsIn.value_iff.1 (binds.of_known encloses known)
    exact ⟨node, bound, kept, rfl, rfl, outside,
      keptUnchecked folds configured shallow outside known found⟩

end Session

/-! ### Programs -/

namespace Session

variable [ZoneTable] {session : Session} {program compiled : Program}

/-- With folding, the places of a compiled program are those of its source. -/
theorem inPlace_of_compile (folds : session.config.fold = true)
    (compiles : session.compile program = .ok compiled) :
    ∃ settings, session.config.settings = .ok settings ∧
      List.Forall₂ (session.InPlaces (session.context settings))
        program.statements compiled.statements := by
  obtain ⟨shallow, settings, configured, accepts, each, -⟩ := compile_iff_accepts.1 compiles
  rw [folds] at each
  refine ⟨settings, configured,
    forall₂_imp_of_mem (fun source isSource compiled compiles => ?_) each⟩
  refine forall₂_imp_of_mem (fun slot isSlot slot' keeps => ?_) (compiles.slots .declaring)
  refine keeps.imp fun {role expr expr'} given compiles => ?_
  have shallow : Visit.checkDepth session.config.maxDepth (Visit.ofExpr expr) = .ok () := by
    rw [Visit.checkDepth_eq_ok] at shallow ⊢
    exact fun visit member => shallow visit (List.mem_flatMap.2
      ⟨source, isSource, Statement.visits_of_slot isSlot given visit member⟩)
  exact inPlace_of_compiles folds configured shallow compiles

end Session

/-! ### A limit in another time zone -/

open Places

/-- Users with their hits. -/
private def hitUsers : Session :=
  .ofSchema ⟨.relation ["user"], [.relation ["user"], .relation ["user", "hits"],
    .field ["user", "hits"] "id" ⟨.long, false, false⟩]⟩

/-- The hour of the first instant in Tokyo, which is 9. -/
private def tokyoHour : ValueExpr :=
  .ofQuantum (.extract .hourOfDay) (.ofConversion .toDatetime (.ofConstant (.integer 0)))
    (some "Asia/Tokyo")

/-- As many rows as this hour says. -/
private def hourly : Query :=
  { span := .none, name := none, parameters := [],
    selections := [⟨.none, .value (.ofAggregation .count (.ofPath "hits.id")), none⟩],
    condition := none, groupBy := [], limit := some tokyoHour, tags := [] }

/-- The number in a literal. -/
private def number? (node : ValueExpr) : Option Int := node.constant?.bind Constant.integral?

private theorem compile_hourly : ∃ compiled kept,
    hitUsers.compile ⟨.none, [.query hourly]⟩ = .ok compiled ∧
      compiled.statements.map Statement.limit? = [some kept] ∧ number? kept = some 0 := by
  have limits : (hitUsers.compile ⟨.none, [.query hourly]⟩).toOption.map (fun compiled =>
      compiled.statements.map fun statement => statement.limit?.bind number?) =
      some [some 0] := by decide +kernel
  cases compiles : hitUsers.compile ⟨.none, [.query hourly]⟩ with
  | error cause => simp [compiles, Except.toOption] at limits
  | ok compiled =>
    simp only [compiles, Except.toOption, Option.map_some, Option.some.injEq] at limits
    obtain ⟨statement, single, limited⟩ := List.map_eq_singleton_iff.1 limits
    obtain ⟨kept, isLimit, isZero⟩ := Option.bind_eq_some_iff.1 limited
    exact ⟨compiled, kept, rfl, by rw [single, List.map_singleton, isLimit], isZero⟩

/-- By itself the hour is 9; as a limit it is taken in the usual time zone, and is 0. -/
theorem not_agrees_hour : ∃ compiled kept,
    hitUsers.compile ⟨.none, [.query hourly]⟩ = .ok compiled ∧
    compiled.statements.map Statement.limit? = [some kept] ∧
    ¬hitUsers.Agrees .count tokyoHour kept := by
  obtain ⟨compiled, kept, compiles, isLimit, isZero⟩ := compile_hourly
  refine ⟨compiled, kept, compiles, isLimit, ?_⟩
  rintro ⟨constant, ⟨span, compilesExpr⟩, span', stored, stores, rfl⟩
  have isNine : (hitUsers.compileExpr (.value tokyoHour)).toOption.bind (fun
      | .value node => number? node
      | .bool _ => none) = some 9 := by decide +kernel
  rw [compilesExpr] at isNine
  obtain rfl : constant = stored := Except.ok.inj stores
  cases isNine.symm.trans isZero

theorem inPlace_of_compile_hourly : hitUsers.config.fold = true ∧
    ∃ compiled, hitUsers.compile ⟨.none, [.query hourly]⟩ = .ok compiled ∧
      ∃ settings, hitUsers.config.settings = .ok settings ∧
        List.Forall₂ (hitUsers.InPlaces (hitUsers.context settings))
          [.query hourly] compiled.statements := by
  obtain ⟨compiled, -, compiles, -⟩ := compile_hourly
  exact ⟨rfl, compiled, compiles, Session.inPlace_of_compile rfl compiles⟩

end EventQuery
