import EventQuery.Proofs.Slots
import Mathlib.Data.List.Nodup

/-!
The search for a cycle as it runs on the calls that recorded the references. It needs no bound on
its steps, what it reports is a cycle of the recorded calls with the span of the first call of its
last pair, and so a program is bound only if none of its statements asks about itself, not even
through others.
-/
namespace EventQuery

open Outcome

namespace Symbols

/-! ### The search without a bound -/

/-- Where the references from a name lead. -/
def targets (references : List StatementReference) (name : String) : List (String × Span) :=
  (references.filter fun edge => edge.source == name).map fun edge => (edge.target, edge.span)

/-- The names that the search starts from. -/
def starts (references : List StatementReference) : List (String × Span) :=
  references.map fun edge => (edge.source, edge.span)

/-- What comes of visiting names in turn from the end of a trail: the names that are then known to
lead to no cycle, or a cycle. -/
inductive Follows (references : List StatementReference) :
    List String → List String → List (String × Span) →
      Except ReferenceCycle (List String) → Prop where
  | done {trail settled} : Follows references trail settled [] (.ok settled)
  | closed {trail settled name span rest} (met : name ∈ trail) :
    Follows references trail settled ((name, span) :: rest)
      (.error ⟨trail.dropWhile (· != name) ++ [name], span⟩)
  | known {trail settled name span rest outcome} (fresh : name ∉ trail) (known : name ∈ settled)
    (others : Follows references trail settled rest outcome) :
    Follows references trail settled ((name, span) :: rest) outcome
  | stopped {trail settled name span rest cycle} (fresh : name ∉ trail) (unknown : name ∉ settled)
    (ahead : Follows references (trail ++ [name]) settled (targets references name)
      (.error cycle)) :
    Follows references trail settled ((name, span) :: rest) (.error cycle)
  | cleared {trail settled settled' name span rest outcome} (fresh : name ∉ trail)
    (unknown : name ∉ settled)
    (ahead : Follows references (trail ++ [name]) settled (targets references name)
      (.ok settled'))
    (others : Follows references trail (settled' ++ [name]) rest outcome) :
    Follows references trail settled ((name, span) :: rest) outcome

/-- The search ends and reports the first cycle that it finds, if there is one. -/
inductive Searches (references : List StatementReference) : Option ReferenceCycle → Prop where
  | unfound {settled} (follows : Follows references [] [] (starts references) (.ok settled)) :
    Searches references none
  | found {cycle} (follows : Follows references [] [] (starts references) (.error cycle)) :
    Searches references (some cycle)

variable {references : List StatementReference}

namespace Follows

variable {trail settled : List String} {name : String} {places : List (String × Span)}
  {outcome outcome' : Except ReferenceCycle (List String)}

theorem unique (follows : Follows references trail settled places outcome)
    (follows' : Follows references trail settled places outcome') : outcome = outcome' := by
  induction follows generalizing outcome' with
  | done =>
    cases follows'
    rfl
  | closed met =>
    cases follows' with
    | closed _ => rfl
    | known fresh _ _ => exact absurd met fresh
    | stopped fresh _ _ => exact absurd met fresh
    | cleared fresh _ _ _ => exact absurd met fresh
  | known fresh known _ ih =>
    cases follows' with
    | closed met => exact absurd met fresh
    | known _ _ others' => exact ih others'
    | stopped _ unknown _ => exact absurd known unknown
    | cleared _ unknown _ _ => exact absurd known unknown
  | stopped fresh unknown _ ih =>
    cases follows' with
    | closed met => exact absurd met fresh
    | known _ known _ => exact absurd known unknown
    | stopped _ _ ahead' => exact Except.error.inj (ih ahead') ▸ rfl
    | cleared _ _ ahead' _ => cases ih ahead'
  | cleared fresh unknown _ _ ihAhead ihOthers =>
    cases follows' with
    | closed met => exact absurd met fresh
    | known _ known _ => exact absurd known unknown
    | stopped _ _ ahead' => cases ihAhead ahead'
    | cleared _ _ ahead' others' =>
      obtain rfl := Except.ok.inj (ihAhead ahead')
      exact ihOthers others'

end Follows

/-- The function does what visiting the name from the end of the trail comes to. -/
private def Visits (references : List StatementReference) (trail : List String) (name : String)
    (visit : List String → Except ReferenceCycle (List String)) : Prop :=
  ∀ settled span rest next, (∀ settled, Follows references trail settled rest (next settled)) →
    Follows references trail settled ((name, span) :: rest) (visit settled >>= next)

private theorem visits_of_ahead {trail : List String} {name : String} (fresh : name ∉ trail)
    {ahead : List String → Except ReferenceCycle (List String)}
    (follows : ∀ settled,
      Follows references (trail ++ [name]) settled (targets references name) (ahead settled)) :
    Visits references trail name fun settled =>
      if settled.contains name then .ok settled else do return (← ahead settled) ++ [name] := by
  intro settled span rest next others
  dsimp only
  split
  case isTrue known => exact .known fresh (by simpa using known) (others settled)
  case isFalse unknown =>
    have unknown : name ∉ settled := by simpa using unknown
    have follows := follows settled
    cases result : ahead settled with
    | ok settled' =>
      rw [result] at follows
      exact .cleared fresh unknown follows (others _)
    | error cycle =>
      rw [result] at follows
      exact .stopped fresh unknown follows

private theorem follows_edges {trail : List String} {edges : List StatementReference}
    {visit : List String → String → Except ReferenceCycle (List String)}
    (each : ∀ edge ∈ edges, edge.target ∉ trail →
      Visits references trail edge.target fun settled => visit settled edge.target)
    (settled : List String) :
    Follows references trail settled (edges.map fun edge => (edge.target, edge.span))
      (edges.foldlM (fun settled edge =>
        if trail.contains edge.target then
          .error ⟨trail.dropWhile (· != edge.target) ++ [edge.target], edge.span⟩
        else visit settled edge.target) settled) := by
  induction edges generalizing settled with
  | nil => exact .done
  | cons edge rest ih =>
    obtain ⟨first, others⟩ := List.forall_mem_cons.1 each
    rw [List.foldlM_cons, List.map_cons]
    split
    case isTrue met => exact .closed (by simpa using met)
    case isFalse fresh => exact first (by simpa using fresh) settled _ _ _ (ih others)

/-- With steps enough for the longest trail the bounded search does what the search does. -/
private theorem visits_follow (fuel : Nat) {trail : List String} {name : String}
    (longer : Trail references (trail ++ [name]))
    (enough : references.length < trail.length + fuel) :
    Visits references trail name fun settled => follow references fuel trail settled name := by
  -- A trail has no name twice, so that it is not longer than the references are many: the steps
  -- that are left never run out before the trail can go no further.
  induction fuel generalizing trail name with
  | zero =>
    have bound := longer.length_le
    rw [List.length_append, List.length_singleton] at bound
    omega
  | succ fuel ih =>
    have fresh : name ∉ trail := fun met =>
      (List.nodup_append.1 longer.distinct).2.2 name met name (List.mem_singleton_self _) rfl
    refine visits_of_ahead fresh (follows_edges fun edge listed unmet => ?_)
    obtain ⟨recorded, isSource⟩ := List.mem_filter.1 listed
    obtain rfl : edge.source = name := by simpa using isSource
    refine ih (longer.snoc ⟨edge, recorded, rfl, rfl⟩ unmet) ?_
    rw [List.length_append, List.length_singleton]
    omega

private theorem follows_starts (references edges : List StatementReference)
    (settled : List String) :
    Follows references [] settled (starts edges)
      ((edges.map StatementReference.source).foldlM
        (follow references (references.length + 1) []) settled) := by
  induction edges generalizing settled with
  | nil => exact .done
  | cons edge rest ih =>
    have alone : Trail references [edge.source] := ⟨List.isChain_singleton _, by simp⟩
    rw [List.map_cons, List.foldlM_cons]
    exact visits_follow _ alone (by simp) settled _ _ _ ih

/-- The search ends, with the result of the bounded search and no other. -/
theorem searches_iff {symbols : Symbols} {result : Option ReferenceCycle} :
    Searches symbols.references result ↔ symbols.cycle? = result := by
  have follows := follows_starts symbols.references symbols.references []
  simp only [cycle?, List.length_map]
  generalize (symbols.references.map StatementReference.source).foldlM
    (follow symbols.references (symbols.references.length + 1) []) [] = outcome at follows ⊢
  constructor
  · intro searches
    cases searches with
    | unfound follows' => rw [follows.unique follows']
    | found follows' => rw [follows.unique follows']
  · rintro rfl
    cases outcome with
    | ok settled => exact .unfound follows
    | error cycle => exact .found follows

/-! ### Recorded calls -/

/-- The names after calls that each record a reference. -/
def recorded (root : Path) (calls : List StatementReference) : Symbols :=
  calls.foldl (fun symbols call => symbols.refer call.source call.target call.span) (.empty root)

/-- The reference leads from the first name to the second. -/
def leads (source target : String) (edge : StatementReference) : Bool :=
  edge.source == source && edge.target == target

theorem leads_iff {source target : String} {edge : StatementReference} :
    leads source target edge = true ↔ edge.source = source ∧ edge.target = target := by
  simp [leads]

theorem refers_iff_find? {source target : String} :
    Refers references source target ↔ (references.find? (leads source target)).isSome = true := by
  simp only [List.find?_isSome, leads_iff, Refers]

/-- Each reference is the first one between its names. -/
def Distinct (references : List StatementReference) : Prop :=
  ∀ edge ∈ references, references.find? (leads edge.source edge.target) = some edge

variable {symbols : Symbols}

/-- Of several calls with the same names the first one is recorded. -/
theorem find?_refer (symbols : Symbols) (call : StatementReference) (source target : String) :
    (symbols.refer call.source call.target call.span).references.find? (leads source target) =
      (symbols.references ++ [call]).find? (leads source target) := by
  unfold refer
  split
  case isFalse => rfl
  case isTrue known =>
    rw [List.find?_append]
    cases found : symbols.references.find? (leads source target) with
    | some edge => rfl
    | none =>
      suffices other : leads source target call = false by simp [other]
      rw [Bool.eq_false_iff, ne_eq, leads_iff]
      rintro ⟨rfl, rfl⟩
      obtain ⟨edge, listed, same⟩ := List.any_eq_true.1 known
      exact List.find?_eq_none.1 found edge listed same

theorem Distinct.refer (distinct : Distinct symbols.references) (call : StatementReference) :
    Distinct (symbols.refer call.source call.target call.span).references := by
  intro edge listed
  have same : leads edge.source edge.target edge = true := leads_iff.2 ⟨rfl, rfl⟩
  unfold Symbols.refer at listed ⊢
  split at listed
  case isTrue known =>
    rw [if_pos known]
    exact distinct edge listed
  case isFalse unknown =>
    rw [if_neg unknown, List.find?_append]
    rcases List.mem_append.1 listed with earlier | last
    · rw [distinct edge earlier]
      rfl
    · obtain rfl := List.mem_singleton.1 last
      have fresh : symbols.references.find? (leads call.source call.target) = none :=
        List.find?_eq_none.2 fun edge listed leads => unknown (List.any_eq_true.2 ⟨edge, listed, leads⟩)
      rw [fresh]
      simp [same]

private theorem distinct_foldl_refer {calls : List StatementReference}
    (distinct : Distinct symbols.references) :
    Distinct (calls.foldl (fun symbols call => symbols.refer call.source call.target call.span)
      symbols).references := by
  induction calls generalizing symbols with
  | nil => exact distinct
  | cons call rest ih => exact ih (distinct.refer call)

private theorem find?_foldl_refer {calls : List StatementReference} {source target : String} :
    (calls.foldl (fun symbols call => symbols.refer call.source call.target call.span)
        symbols).references.find? (leads source target) =
      (symbols.references ++ calls).find? (leads source target) := by
  induction calls generalizing symbols with
  | nil => rw [List.foldl_nil, List.append_nil]
  | cons call rest ih =>
    rw [List.foldl_cons, ih, List.find?_append, find?_refer, ← List.find?_append, List.append_assoc,
      List.singleton_append]

theorem distinct_recorded {root : Path} {calls : List StatementReference} :
    Distinct (recorded root calls).references := distinct_foldl_refer (List.forall_mem_nil _)

/-- What is recorded between two names is the first call with them. -/
theorem find?_recorded (root : Path) {calls : List StatementReference} (source target : String) :
    (recorded root calls).references.find? (leads source target) =
      calls.find? (leads source target) := find?_foldl_refer

theorem refers_recorded (root : Path) {calls : List StatementReference} :
    Refers (recorded root calls).references = Refers calls := by
  funext source target
  rw [eq_iff_iff, refers_iff_find?, find?_recorded, refers_iff_find?]

end Symbols

namespace ReferenceCycle

/-- The names lead, call by call, from the first one back to it, and meet no other one twice. The
span is that of the first call for the last pair of names. -/
def Closes (calls : List StatementReference) (cycle : ReferenceCycle) : Prop :=
  ∃ first rest last, cycle.names = first :: rest ++ [first] ∧ (first :: rest).Nodup ∧
    cycle.names.IsChain (Symbols.Refers calls) ∧ (first :: rest).getLast? = some last ∧
    (calls.find? (Symbols.leads last first)).map StatementReference.span = some cycle.span

theorem Recorded.closes {root : Path} {calls : List StatementReference} {cycle : ReferenceCycle}
    (isCycle : cycle.Recorded (Symbols.recorded root calls).references) : cycle.Closes calls := by
  obtain ⟨first, rest, names, ⟨linked, distinct⟩, edge, listed, closing, rfl, isSpan⟩ := isCycle
  refine ⟨edge.target, rest, edge.source, names, distinct, ?_, closing, ?_⟩
  · rw [Symbols.refers_recorded] at linked
    rw [names, List.isChain_append]
    refine ⟨linked, List.isChain_singleton _, fun last isLast next isNext => ?_⟩
    obtain rfl := Option.some.inj (closing.symm.trans isLast)
    obtain rfl := Option.some.inj isNext
    rw [← Symbols.refers_recorded root]
    exact ⟨edge, listed, rfl, rfl⟩
  · rw [← Symbols.find?_recorded root, Symbols.distinct_recorded edge listed,
      Option.map_some, isSpan]

end ReferenceCycle

/-! ### References of a source -/

/-- Somewhere in the expression a function that asks about a statement is called with the name. -/
def Expr.CallsAbout (expr : Expr) (target : String) : Prop :=
  ∃ (reference : Reference) (span literal : Span) (rest : List ValueExpr)
    (binding : Option Binding), expr.HasPart (.value
      (.call span reference.name (.constant literal (.string target) :: rest) binding))

/-- In the program a statement with the first name asks about the second. -/
def Program.Asks (program : Program) (source target : String) : Prop :=
  ∃ statement ∈ program.statements, statement.name? = some source ∧
    ∃ expr ∈ Bind.expressions statement, expr.CallsAbout target

/-! ### Functions -/

theorem Function.mem_all (function : Function) : function ∈ all := by
  cases function
  case about reference => cases reference <;> simp [all, Reference.all]
  all_goals simp [all]

theorem Function.eq_of_name_eq {function function' : Function}
    (same : function.name = function'.name) : function = function' := by
  have distinct : (all.map name).Nodup := by decide
  exact List.inj_on_of_nodup_map distinct function.mem_all function'.mem_all same

namespace Symbols

/-- Functions are known by their own names. -/
def NamesFunctions (symbols : Symbols) : Prop :=
  ∀ name function, symbols.lookup? name = some (.function function) → function.name = name

theorem NamesFunctions.define {symbols symbols' : Symbols} (named : symbols.NamesFunctions)
    {function : Function}
    (defines : symbols.define? function.name (.function function) = some symbols') :
    symbols'.NamesFunctions := by
  obtain ⟨-, rfl⟩ := Bind.define?_eq_some.1 defines
  intro name known found
  rcases Bind.lookup?_or_mem_of_extended found with before | added
  · exact named name known before
  · obtain ⟨rfl, ⟨⟩⟩ := Prod.mk.inj (List.mem_singleton.1 added)
    rfl

theorem namesFunctions_start {schema : Schema} {settings : Settings} {registry : Registry} :
    (Context.start schema settings registry).symbols.NamesFunctions := by
  have empty : (Symbols.empty schema.root).NamesFunctions := nofun
  unfold Context.start
  dsimp only
  generalize Symbols.empty schema.root = symbols at empty ⊢
  induction registry.functions generalizing symbols with
  | nil => exact empty
  | cons function rest ih =>
    refine ih _ ?_
    dsimp only
    cases defines : symbols.define? function.name (.function function) with
    | none => exact empty
    | some symbols' => exact empty.define defines

end Symbols

namespace Bind

theorem name?_of_statement {context : Context} {known known' : Statement}
    (binds : statement context known = .ok known') : known'.name? = known.name? := by
  obtain ⟨symbols, -, bound⟩ := bind_eq_ok.1 binds
  cases known with
  | query known =>
    simp only [query, bind_eq_ok, pure_eq_ok] at bound
    obtain ⟨_, ⟨_, _, _, _, _, _, _, _, rfl⟩, rfl⟩ := bound
    rfl
  | view known =>
    simp only [view, bind_eq_ok, pure_eq_ok] at bound
    obtain ⟨_, ⟨_, _, rfl⟩, rfl⟩ := bound
    rfl
  | funnel known =>
    simp only [funnel, bind_eq_ok, pure_eq_ok] at bound
    obtain ⟨_, ⟨_, _, _, _, _, _, _, _, rfl⟩, rfl⟩ := bound
    rfl
  | segment known =>
    simp only [segment, bind_eq_ok, pure_eq_ok] at bound
    obtain ⟨_, ⟨_, _, _, _, rfl⟩, rfl⟩ := bound
    rfl

end Bind

namespace Expr

variable {context : Context} {expr expr' part : Expr}

theorem BindsInside.exists_part (binds : BindsInside context expr expr') (has : expr.HasPart part) :
    ∃ part', expr'.HasPart part' ∧ BindsInside context part part' := by
  induction has generalizing expr' with
  | whole => exact ⟨expr', .whole, binds⟩
  | within member _ ih =>
    obtain ⟨child', listed, binds⟩ := binds.exists_child member
    obtain ⟨part', has, binds⟩ := ih binds
    exact ⟨part', .within listed has, binds⟩

/-- A call about a statement keeps the name when it is bound. -/
theorem BindsInside.referent (named : context.symbols.NamesFunctions) {reference : Reference}
    {span literal : Span} {target : String} {rest : List ValueExpr} {binding : Option Binding}
    (binds : BindsInside context (.value
      (.call span reference.name (.constant literal (.string target) :: rest) binding)) expr') :
    ∃ place, Bind.referent? expr' = some (target, place) := by
  obtain ⟨inner, encloses, binds⟩ := binds
  cases binds with
  | value bound =>
    obtain ⟨known, found, state⟩ := Bind.call_iff.1 bound
    have isKnown := encloses.calls _ _ (Bind.function_eq_ok.1 found).1
    obtain rfl : known = .about reference := Function.eq_of_name_eq (named _ _ isKnown)
    rcases state with ⟨state, unbound, rfl⟩ | ⟨unbound, -⟩
    · obtain ⟨_, _, ⟨⟩, rfl⟩ := Bind.referent_eq_ok (Option.some.inj unbound)
      exact ⟨_, rfl⟩
    · cases unbound

theorem CallsAbout.referents (named : context.symbols.NamesFunctions) {target : String}
    (calls : expr.CallsAbout target) (binds : BindsInside context expr expr') :
    ∃ place, (target, place) ∈ Bind.referentsOf expr' := by
  obtain ⟨reference, span, literal, rest, binding, has⟩ := calls
  obtain ⟨part', has', binds⟩ := binds.exists_part has
  obtain ⟨place, asks⟩ := binds.referent named
  have listed : (0, part') ∈ part'.nodesFrom 0 := by
    rw [nodesFrom_eq]
    exact List.mem_cons_self ..
  obtain ⟨level, -, listed⟩ := has'.exists_mem_nodesFrom listed
  exact ⟨place, List.mem_filterMap.2 ⟨_, listed, asks⟩⟩

end Expr

namespace Program

variable {schema : Schema} {settings : Settings} {registry : Registry} {program bound : Program}

/-- In a program that can be bound no statement asks about itself, not even through others. -/
theorem acyclic_of_bind (binds : program.bind (.start schema settings registry) = .ok bound) :
    Symbols.Acyclic program.Asks := by
  obtain ⟨accepts, each, -⟩ := bind_iff_accepts.1 binds
  refine accepts.acyclic.mono fun source target asks => .inr ?_
  obtain ⟨statement, listed, isSource, expr, isExpr, calls⟩ := asks
  obtain ⟨statement', -, bindsStatement⟩ := exists_of_mem_left each listed
  refine ⟨statement, listed, statement', bindsStatement,
    (Bind.name?_of_statement bindsStatement).trans isSource, ?_⟩
  rw [Bind.expressions_eq, List.mem_filterMap] at isExpr
  obtain ⟨slot, isSlot, given⟩ := isExpr
  obtain ⟨slot', isSlot', keeps⟩ := exists_of_mem_left
    (Bind.slots_of_statement Context.Encloses.declaring bindsStatement) isSlot
  obtain ⟨expr', given', bindsExpr⟩ := keeps.exists_of_given given
  obtain ⟨place, asks⟩ := calls.referents Symbols.namesFunctions_start bindsExpr
  refine ⟨place, List.mem_flatMap.2 ⟨expr', ?_, asks⟩⟩
  rw [Bind.expressions_eq]
  exact List.mem_filterMap.2 ⟨slot', isSlot', given'⟩

end Program

namespace Symbols

/-- The search for a cycle among recorded calls ends, reports none exactly if there is none, and
otherwise a cycle with the span of the first call of its last pair. So in a program that can be
bound no statement asks about itself, not even through others. -/
theorem search_of_calls :
    (∀ (root : Path) (calls : List StatementReference),
      (∀ result, Searches (recorded root calls).references result ↔
        (recorded root calls).cycle? = result) ∧
      ((recorded root calls).cycle? = none ↔ Acyclic (Refers calls)) ∧
      ∀ cycle, (recorded root calls).cycle? = some cycle → cycle.Closes calls) ∧
    ∀ (schema : Schema) (settings : Settings) (registry : Registry) (program bound : Program),
      program.bind (.start schema settings registry) = .ok bound → Acyclic program.Asks := by
  refine ⟨fun root calls => ⟨fun result => searches_iff, ?_, fun cycle found => ?_⟩,
    fun schema settings registry program bound => Program.acyclic_of_bind⟩
  · rw [cycle?_eq_none_iff, refers_recorded]
  · exact (recorded_of_cycle? found).closes

/-- A chain of calls that comes back to its second name; one call is made twice. -/
private def chain : List StatementReference :=
  [⟨"a", "b", ⟨1, 2⟩⟩, ⟨"b", "c", ⟨3, 4⟩⟩, ⟨"c", "b", ⟨5, 6⟩⟩, ⟨"c", "b", ⟨7, 8⟩⟩]

/-- Two views, the second one inside the first. -/
private def views : Program :=
  ⟨.none, [.view ⟨.none, "inner", [], .wrapper .none
    (.call .none "in_view" [.ofConstant (.string "outer")] none)⟩,
    .view ⟨.none, "outer", [], .ofTruth true⟩]⟩

private def userRows : Context :=
  .start ⟨.relation ["user"], [.relation ["user"]]⟩ ⟨.utc, true⟩ .builtin

theorem search_of_calls_chain :
    (∃ cycle, (recorded (.relation ["user"]) chain).cycle? = some cycle ∧
      cycle = ⟨["b", "c", "b"], ⟨5, 6⟩⟩ ∧ cycle.Closes chain) ∧
    ∃ bound, views.bind userRows = .ok bound ∧ Acyclic views.Asks := by
  have found : (recorded (.relation ["user"]) chain).cycle? =
      some ⟨["b", "c", "b"], ⟨5, 6⟩⟩ := by decide
  have succeeds : (views.bind userRows).isOk = true := by decide +kernel
  refine ⟨⟨_, found, rfl, (search_of_calls.1 _ _).2.2 _ found⟩, ?_⟩
  cases binds : views.bind userRows with
  | error cause =>
    rw [binds] at succeeds
    cases succeeds
  | ok bound => exact ⟨bound, rfl, search_of_calls.2 _ _ _ _ _ binds⟩

end Symbols

end EventQuery
