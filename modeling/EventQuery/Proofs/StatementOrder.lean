import Mathlib.Data.List.Perm.Basic
import EventQuery.Calendar.Places
import EventQuery.Proofs.Agreement
import EventQuery.Proofs.Levels
import EventQuery.Proofs.ReferenceCycles
import EventQuery.Proofs.Stages

/-!
The order of the statements of a program does not matter. All names are declared before any
statement is bound, so each statement is bound with the same meanings; every later stage looks
at one statement at a time, and whether the references have a cycle is a matter of which there
are, not of the order in which they were recorded.
-/
namespace EventQuery

open Outcome

/-! ### Lists in another order -/

/-- What a name stands for does not depend on the order of entries with different names. -/
theorem lookup_perm {α : Type} {entries entries' : List (String × α)}
    (perm : entries.Perm entries') (distinct : (entries.map Prod.fst).Nodup) (name : String) :
    entries'.lookup name = entries.lookup name := by
  induction perm with
  | nil => rfl
  | cons entry _ ih =>
    obtain ⟨key, value⟩ := entry
    simp only [List.lookup_cons, ih (List.nodup_cons.1 distinct).2]
  | swap first second rest =>
    obtain ⟨key, value⟩ := first
    obtain ⟨key', value'⟩ := second
    have apart : key' ≠ key := fun same => by simp [same] at distinct
    simp only [List.lookup_cons]
    grind
  | trans first _ ihFirst ihSecond =>
    rw [ihSecond ((first.map Prod.fst).nodup_iff.1 distinct), ihFirst distinct]

/-- What relates to each of some parts relates to them in another order, each to the same. -/
theorem exists_perm_of_forall₂ {α β : Type} {R : α → β → Prop} {parts parts' : List α}
    {values : List β} (perm : parts.Perm parts') (related : List.Forall₂ R parts values) :
    ∃ values', List.Forall₂ R parts' values' ∧
      (parts.zip values).Perm (parts'.zip values') ∧ values.Perm values' := by
  induction perm generalizing values with
  | nil => exact ⟨values, related, .refl _, .refl _⟩
  | cons part _ ih =>
    obtain ⟨value, rest, first, others, rfl⟩ := List.forall₂_cons_left_iff.1 related
    obtain ⟨rest', others', zipped, same⟩ := ih others
    exact ⟨value :: rest', .cons first others', zipped.cons _, same.cons _⟩
  | swap second first rest =>
    obtain ⟨value, _, isFirst, following, rfl⟩ := List.forall₂_cons_left_iff.1 related
    obtain ⟨value', others, isSecond, remaining, rfl⟩ := List.forall₂_cons_left_iff.1 following
    exact ⟨value' :: value :: others, .cons isSecond (.cons isFirst remaining), .swap .., .swap ..⟩
  | trans _ _ ihFirst ihSecond =>
    obtain ⟨between, related, zipped, same⟩ := ihFirst related
    obtain ⟨values', related, zipped', same'⟩ := ihSecond related
    exact ⟨values', related, zipped.trans zipped', same.trans same'⟩

/-! ### Names -/

namespace Bind

/-- The names of statements with what they stand for. -/
def declarations (statements : List Statement) : List (String × Definition) :=
  statements.filterMap fun statement => statement.name?.map fun name => (name, definition statement)

/-- The names with some definitions more in the current scope. -/
def extended (symbols : Symbols) (definitions : List (String × Definition)) : Symbols :=
  { symbols with current.definitions := symbols.current.definitions ++ definitions }

/-- Different names that mean nothing yet in the current scope can be declared. -/
structure Declarable (symbols : Symbols) (definitions : List (String × Definition)) : Prop where
  fresh : ∀ entry ∈ definitions, symbols.current.lookup? entry.1 = none
  distinct : (definitions.map Prod.fst).Nodup

@[simp] theorem extended_nil (symbols : Symbols) : extended symbols [] = symbols := by
  simp only [extended, List.append_nil]

theorem extended_cons (symbols : Symbols) (entry : String × Definition)
    (definitions : List (String × Definition)) :
    extended symbols (entry :: definitions) = extended (extended symbols [entry]) definitions := by
  simp only [extended, List.append_assoc, List.singleton_append]

theorem lookup?_extended (symbols : Symbols) (definitions : List (String × Definition))
    (name : String) : (extended symbols definitions).current.lookup? name =
      (symbols.current.lookup? name).or (definitions.lookup name) := List.lookup_append

/-- What a name means with more definitions it meant without them, or it is defined there. -/
theorem lookup?_or_mem_of_extended {symbols : Symbols} {definitions : List (String × Definition)}
    {name : String} {definition : Definition}
    (found : (extended symbols definitions).lookup? name = some definition) :
    symbols.lookup? name = some definition ∨ (name, definition) ∈ definitions := by
  simp only [Symbols.lookup?, Symbols.scopes, List.findSome?_cons] at found ⊢
  rw [lookup?_extended] at found
  cases isHere : symbols.current.lookup? name with
  | some known => exact .inl (by simpa [isHere] using found)
  | none =>
    cases added : definitions.lookup name with
    | none => exact .inl (by simpa [isHere, added, extended] using found)
    | some known =>
      obtain rfl : known = definition := by simpa [isHere, added] using found
      obtain ⟨before, after, rfl, -⟩ := List.lookup_eq_some_iff.1 added
      exact .inr (by simp)

theorem define?_eq_some {symbols symbols' : Symbols} {name : String} {definition : Definition} :
    symbols.define? name definition = some symbols' ↔ symbols.current.lookup? name = none ∧
      extended symbols [(name, definition)] = symbols' := by
  simp only [Symbols.define?, Option.map_eq_some_iff, Scope.define?_eq_some, extended]
  constructor
  · rintro ⟨_, ⟨fresh, rfl⟩, rfl⟩
    exact ⟨fresh, rfl⟩
  · rintro ⟨fresh, rfl⟩
    exact ⟨_, ⟨fresh, rfl⟩, rfl⟩

namespace Declarable

variable {symbols : Symbols} {definitions definitions' : List (String × Definition)}

theorem cons_iff {name : String} {definition : Definition} :
    Declarable symbols ((name, definition) :: definitions) ↔
      symbols.current.lookup? name = none ∧
        Declarable (extended symbols [(name, definition)]) definitions := by
  have fresh (entry : String × Definition) :
      (extended symbols [(name, definition)]).current.lookup? entry.1 = none ↔
        symbols.current.lookup? entry.1 = none ∧ entry.1 ≠ name := by
    simp only [lookup?_extended, Option.or_eq_none_iff, List.lookup_eq_none_iff,
      List.forall_mem_singleton, bne_iff_ne, ne_eq]
  constructor
  · rintro ⟨free, distinct⟩
    obtain ⟨first, others⟩ := List.forall_mem_cons.1 free
    obtain ⟨apart, distinct⟩ := List.nodup_cons.1 distinct
    refine ⟨first, fun entry listed => (fresh entry).2 ⟨others entry listed, ?_⟩, distinct⟩
    rintro rfl
    exact apart (List.mem_map.2 ⟨entry, listed, rfl⟩)
  · rintro ⟨first, free, distinct⟩
    refine ⟨List.forall_mem_cons.2 ⟨first, fun entry listed => ((fresh entry).1 (free entry listed)).1⟩,
      List.nodup_cons.2 ⟨fun listed => ?_, distinct⟩⟩
    obtain ⟨entry, listed, same⟩ := List.mem_map.1 listed
    exact ((fresh entry).1 (free entry listed)).2 same

theorem of_perm (declarable : Declarable symbols definitions)
    (perm : definitions.Perm definitions') : Declarable symbols definitions' where
  fresh entry listed := declarable.fresh entry (perm.mem_iff.2 listed)
  distinct := (perm.map Prod.fst).nodup_iff.1 declarable.distinct

/-- Every name means the same in whatever order the names are declared. -/
theorem agree (declarable : Declarable symbols definitions)
    (perm : definitions.Perm definitions') :
    (extended symbols definitions).Agree (extended symbols definitions') where
  root := rfl
  here name := by simp only [lookup?_extended, lookup_perm perm declarable.distinct]
  around _ := rfl

end Declarable

theorem declare_eq_ok {symbols symbols' : Symbols} {statements : List Statement} :
    declare symbols statements = .ok symbols' ↔
      Declarable symbols (declarations statements) ∧
        extended symbols (declarations statements) = symbols' := by
  induction statements generalizing symbols with
  | nil =>
    have declarable : Declarable symbols (declarations []) := ⟨List.forall_mem_nil _, .nil⟩
    have nothing : extended symbols (declarations []) = symbols := extended_nil symbols
    simp only [declare, declarable, nothing, true_and, Except.ok.injEq]
  | cons statement rest ih =>
    unfold declare
    split
    case h_1 unnamed => simp [ih, declarations, unnamed]
    case h_2 name isName =>
      have entries : declarations (statement :: rest) =
          (name, definition statement) :: declarations rest := by
        simp [declarations, isName]
      rw [entries, Declarable.cons_iff, extended_cons _ _ (declarations rest), and_assoc, ← ih]
      cases defines : symbols.define? name (definition statement) with
      | some defined =>
        obtain ⟨fresh, rfl⟩ := define?_eq_some.1 defines
        simp only [fresh, true_and]
      | none =>
        have known : symbols.current.lookup? name ≠ none := fun fresh => by
          simp [define?_eq_some.2 ⟨fresh, rfl⟩] at defines
        simp [known]

end Bind

/-! ### Programs -/

/-- The second statement is the first one compiled where the names are declared. -/
def Statement.CompilesIn [ZoneTable] (context : Context) (fold : Bool)
    (source compiled : Statement) : Prop :=
  ∃ bound, Bind.statement context source = .ok bound ∧
    ∃ valid, Validate.statement bound = .ok valid ∧ Optimize.statement fold valid = .ok compiled

/-- Among the statements one with the first name asks about the second, once it is bound. -/
def Bind.Links (context : Context) (statements : List Statement) (source target : String) : Prop :=
  ∃ statement ∈ statements, ∃ bound, Bind.statement context statement = .ok bound ∧
    bound.name? = some source ∧ AsksAbout bound target

/-- The context with the names of the statements. -/
def Context.declaring (context : Context) (statements : List Statement) : Context :=
  { context with symbols := Bind.extended context.symbols (Bind.declarations statements) }

namespace Context

variable {context : Context} {statements statements' : List Statement}

/-- In this context the statements can be declared and, once bound, refer to each other without
a cycle. -/
structure Accepts (context : Context) (statements : List Statement) : Prop where
  declarable : Bind.Declarable context.symbols (Bind.declarations statements)
  acyclic : Symbols.Acyclic fun source target =>
    Symbols.Refers context.symbols.references source target ∨
      Bind.Links (context.declaring statements) statements source target

theorem Accepts.agree (accepts : context.Accepts statements)
    (perm : statements.Perm statements') :
    (context.declaring statements).Agree (context.declaring statements') :=
  ⟨rfl, rfl, rfl, accepts.declarable.agree (perm.filterMap _)⟩

theorem Accepts.of_perm (accepts : context.Accepts statements)
    (perm : statements.Perm statements') : context.Accepts statements' where
  declarable := accepts.declarable.of_perm (perm.filterMap _)
  acyclic := by
    refine accepts.acyclic.mono fun source target => Or.imp_right ?_
    rintro ⟨statement, listed, bound, binds, asks⟩
    exact ⟨statement, perm.mem_iff.2 listed, bound,
      Bind.statement_of_agree (accepts.agree perm).symm binds, asks⟩

end Context

namespace Program

variable {context : Context} {program bound : Program}

/-- The references of bound statements are the links between them. -/
private theorem links_iff {statements bounds : List Statement} (each : List.Forall₂
      (fun statement bound => Bind.statement context statement = .ok bound) statements bounds)
    (source target : String) :
    Symbols.Refers (bounds.foldl Bind.recordReferences context.symbols).references source target ↔
      Symbols.Refers context.symbols.references source target ∨
        Bind.Links context statements source target := by
  rw [Bind.refers_foldl_recordReferences]
  refine or_congr_right ⟨?_, ?_⟩
  · rintro ⟨bound, listed, asks⟩
    obtain ⟨statement, listed, binds⟩ := exists_of_mem_right each listed
    exact ⟨statement, listed, bound, binds, asks⟩
  · rintro ⟨statement, listed, bound, binds, asks⟩
    obtain ⟨bound', listed, binds'⟩ := exists_of_mem_left each listed
    obtain rfl := Except.ok.inj (binds.symm.trans binds')
    exact ⟨bound, listed, asks⟩

/-- A program is bound when its statements are accepted and each can be bound by itself. -/
theorem bind_iff_accepts :
    program.bind context = .ok bound ↔ context.Accepts program.statements ∧
      List.Forall₂ (fun statement bound =>
          Bind.statement (context.declaring program.statements) statement = .ok bound)
        program.statements bound.statements ∧
      { program with statements := bound.statements } = bound := by
  rw [bind_eq_ok]
  constructor
  · rintro ⟨symbols, declares, bounds, each, acyclic, rfl⟩
    obtain ⟨declarable, rfl⟩ := Bind.declare_eq_ok.1 declares
    have acyclic := (Bind.checkCycle_eq_ok.1 acyclic).mono fun source target =>
      (links_iff each source target).2
    exact ⟨⟨declarable, acyclic⟩, each, rfl⟩
  · rintro ⟨accepts, each, same⟩
    refine ⟨_, Bind.declare_eq_ok.2 ⟨accepts.declarable, rfl⟩, bound.statements, each, ?_, same⟩
    exact Bind.checkCycle_eq_ok.2 (accepts.acyclic.mono fun source target =>
      (links_iff each source target).1)

end Program

namespace Session

variable {session : Session} {program compiled : Program}

/-- A program compiles when it is not nested too deep, its statements are accepted, and each
compiles by itself where the names are declared. -/
theorem compile_iff_accepts [ZoneTable] :
    session.compile program = .ok compiled ↔
      Visit.checkDepth session.config.maxDepth (Visit.ofProgram program) = .ok () ∧
      ∃ settings, session.config.settings = .ok settings ∧
        (session.context settings).Accepts program.statements ∧
        List.Forall₂
          (Statement.CompilesIn ((session.context settings).declaring program.statements)
            session.config.fold)
          program.statements compiled.statements ∧
        { program with statements := compiled.statements } = compiled := by
  rw [compile_eq_ok]
  refine and_congr_right fun _ => exists_congr fun settings => and_congr_right fun _ => ?_
  constructor
  · rintro ⟨bound, binds, valid, validates, optimizes⟩
    obtain ⟨accepts, eachBinds, isBound⟩ := Program.bind_iff_accepts.1 binds
    obtain ⟨valids, eachValidates, rfl⟩ := Program.validate_eq_ok.1 validates
    obtain ⟨results, eachOptimizes, rfl⟩ := Program.optimize_eq_ok.1 optimizes
    refine ⟨accepts, ?_, by rw [← isBound]⟩
    exact forall₂_comp_iff.2 ⟨_, eachBinds, forall₂_comp_iff.2 ⟨_, eachValidates, eachOptimizes⟩⟩
  · rintro ⟨accepts, each, same⟩
    obtain ⟨bounds, eachBinds, each⟩ := forall₂_comp_iff.1 each
    obtain ⟨valids, eachValidates, eachOptimizes⟩ := forall₂_comp_iff.1 each
    refine ⟨{ program with statements := bounds }, Program.bind_iff_accepts.2 ⟨accepts, eachBinds, rfl⟩,
      { program with statements := valids }, Program.validate_eq_ok.2 ⟨valids, eachValidates, rfl⟩,
      Program.optimize_eq_ok.2 ⟨compiled.statements, eachOptimizes, same⟩⟩

/-- What compiles in one order compiles in every order, each statement to the same tree. -/
private theorem exists_compile_of_perm [ZoneTable] {statements : List Statement}
    (perm : program.statements.Perm statements)
    (compiles : session.compile program = .ok compiled) :
    ∃ results, session.compile { program with statements } =
        .ok { compiled with statements := results } ∧
      (program.statements.zip compiled.statements).Perm (statements.zip results) ∧
      compiled.statements.Perm results := by
  obtain ⟨shallow, settings, configured, accepts, each, same⟩ := compile_iff_accepts.1 compiles
  obtain ⟨results, each', zipped, reordered⟩ := exists_perm_of_forall₂ perm each
  refine ⟨results, compile_iff_accepts.2 ⟨?_, settings, configured, accepts.of_perm perm, ?_, ?_⟩,
    zipped, reordered⟩
  · rw [Visit.checkDepth_eq_ok] at shallow ⊢
    exact fun visit listed => shallow visit ((perm.flatMap_right _).mem_iff.2 listed)
  · refine each'.imp fun statement result compiles => ?_
    obtain ⟨bound, binds, rest⟩ := compiles
    exact ⟨bound, Bind.statement_of_agree (accepts.agree perm) binds, rest⟩
  · rw [← same]

/-- The order of the statements of a program does not matter: in another order it compiles just
as well or as little, and every statement is compiled to the same tree. -/
theorem compile_perm [ZoneTable] {statements : List Statement}
    (perm : program.statements.Perm statements) :
    ((∃ compiled, session.compile program = .ok compiled) ↔
      ∃ compiled', session.compile { program with statements } = .ok compiled') ∧
    ∀ compiled compiled', session.compile program = .ok compiled →
      session.compile { program with statements } = .ok compiled' →
        compiled.statements.length = program.statements.length ∧
        (program.statements.zip compiled.statements).Perm
          (statements.zip compiled'.statements) ∧
        compiled.statements.Perm compiled'.statements := by
  refine ⟨⟨?_, ?_⟩, ?_⟩
  · rintro ⟨compiled, compiles⟩
    obtain ⟨results, compiles', -⟩ := exists_compile_of_perm perm compiles
    exact ⟨_, compiles'⟩
  · rintro ⟨compiled', compiles'⟩
    obtain ⟨results, compiles, -⟩ := exists_compile_of_perm perm.symm compiles'
    exact ⟨_, compiles⟩
  · intro compiled compiled' compiles compiles'
    obtain ⟨results, found, zipped, reordered⟩ := exists_compile_of_perm perm compiles
    obtain rfl := Except.ok.inj (compiles'.symm.trans found)
    obtain ⟨-, _, -, -, each, -⟩ := compile_iff_accepts.1 compiles
    exact ⟨each.length_eq.symm, zipped, reordered⟩

/-- Users and their hits. -/
private def hitSchema : Schema :=
  ⟨.relation ["user"], [.relation ["user"], .relation ["user", "hits"],
    .field ["user", "hits"] "id" ⟨.long, false, false⟩]⟩

/-- The hits with an odd id. -/
private def oddHits : Statement :=
  .view ⟨.none, "odd", [], .ofComparison .eq (.ofConstant (.integer 1)) (.ofPath "hits.id")⟩

/-- The ids of the hits that a view names. -/
private def viewedHits : Statement :=
  .query ⟨.none, some "viewed", [], [⟨.none, .value (.ofPath "hits.id"), none⟩],
    some (.wrapper .none (.call .none "in_view" [.ofConstant (.string "odd")] none)), [], none, []⟩

open Places

theorem compile_perm_viewed :
    [viewedHits, oddHits].Perm [oddHits, viewedHits] ∧ ∃ compiled compiled',
      (Session.ofSchema hitSchema).compile ⟨.none, [viewedHits, oddHits]⟩ = .ok compiled ∧
      (Session.ofSchema hitSchema).compile ⟨.none, [oddHits, viewedHits]⟩ = .ok compiled' ∧
      compiled.statements.length = 2 ∧
      ([viewedHits, oddHits].zip compiled.statements).Perm
        ([oddHits, viewedHits].zip compiled'.statements) ∧
      compiled.statements.Perm compiled'.statements := by
  have perm : [viewedHits, oddHits].Perm [oddHits, viewedHits] := .swap ..
  have succeeds :
      ((Session.ofSchema hitSchema).compile ⟨.none, [viewedHits, oddHits]⟩).isOk = true := by
    decide +kernel
  cases compiles : (Session.ofSchema hitSchema).compile ⟨.none, [viewedHits, oddHits]⟩ with
  | error cause =>
    rw [compiles] at succeeds
    cases succeeds
  | ok compiled =>
    obtain ⟨both, same⟩ :=
      @compile_perm (.ofSchema hitSchema) ⟨.none, [viewedHits, oddHits]⟩ _ _ perm
    obtain ⟨compiled', compiles'⟩ := both.1 ⟨compiled, compiles⟩
    exact ⟨perm, compiled, compiled', rfl, compiles', same compiled compiled' compiles compiles'⟩

end Session

end EventQuery
