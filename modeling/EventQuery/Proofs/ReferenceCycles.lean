import EventQuery.Proofs.Outcome
import EventQuery.Statement.Bind
import Mathlib.Data.List.Chain
import Mathlib.Data.List.Perm.Subperm
import Mathlib.Logic.Relation

/-!
The search for a cycle among references finds one exactly if there is one. A trail repeats no
name, so it is never longer than there are references, and the search has steps enough. A name
that the search is done with refers only to names that it was done with before.
-/
namespace EventQuery

open Outcome

namespace Symbols

variable {references : List StatementReference}

/-- Some reference leads from the first name to the second. -/
def Refers (references : List StatementReference) (source target : String) : Prop :=
  ∃ edge ∈ references, edge.source = source ∧ edge.target = target

/-- No name refers to itself, not even through others. -/
def Acyclic (refers : String → String → Prop) : Prop := ∀ name, ¬Relation.TransGen refers name name

theorem Acyclic.mono {refers refers' : String → String → Prop} (acyclic : Acyclic refers)
    (fewer : ∀ source target, refers' source target → refers source target) : Acyclic refers' :=
  fun name cycle => acyclic name (Relation.TransGen.mono fewer _ _ cycle)

/-! ### Names that lead to no cycle -/

/-- Names in an order in which each refers only to names before it. -/
inductive Cleared (references : List StatementReference) : List String → Prop where
  | nil : Cleared references []
  | snoc {names : List String} {name : String} (earlier : Cleared references names)
    (ahead : ∀ target, Refers references name target → target ∈ names) :
    Cleared references (names ++ [name])

namespace Cleared

variable {names : List String} {name target : String}

theorem mem_of_refers (cleared : Cleared references names) (listed : name ∈ names)
    (refers : Refers references name target) : target ∈ names := by
  induction cleared with
  | nil => cases listed
  | snoc _ ahead ih =>
    refine List.mem_append_left _ ?_
    rcases List.mem_append.1 listed with earlier | last
    · exact ih earlier
    · obtain rfl := List.mem_singleton.1 last
      exact ahead target refers

theorem mem_of_reaches (cleared : Cleared references names) (listed : name ∈ names)
    (reaches : Relation.TransGen (Refers references) name target) : target ∈ names := by
  induction reaches with
  | single refers => exact cleared.mem_of_refers listed refers
  | tail _ refers ih => exact cleared.mem_of_refers ih refers

/-- A cycle through the last name would lead back through names before it, and these do not
lead to it. -/
theorem not_reaches_self (cleared : Cleared references names) (listed : name ∈ names) :
    ¬Relation.TransGen (Refers references) name name := by
  induction cleared generalizing name with
  | nil => cases listed
  | @snoc names last earlier ahead ih =>
    intro cycle
    by_cases before : name ∈ names
    · exact ih before cycle
    · obtain rfl : name = last := by simpa [before] using listed
      obtain ⟨next, refers, back⟩ := Relation.TransGen.head'_iff.1 cycle
      have isNext := ahead next refers
      rcases Relation.reflTransGen_iff_eq_or_transGen.1 back with rfl | back
      · exact before isNext
      · exact before (earlier.mem_of_reaches isNext back)

end Cleared

/-! ### Trails -/

/-- Different names of which each refers to the next. -/
structure Trail (references : List StatementReference) (names : List String) : Prop where
  linked : names.IsChain (Refers references)
  distinct : names.Nodup

namespace Trail

variable {names before after : List String} {name target : String}

theorem right_of_append (trail : Trail references (before ++ after)) : Trail references after :=
  ⟨trail.linked.right_of_append, trail.distinct.sublist (List.sublist_append_right ..)⟩

/-- A trail goes on to a name that it has not met. -/
theorem snoc (trail : Trail references (names ++ [name])) (refers : Refers references name target)
    (fresh : target ∉ names ++ [name]) : Trail references (names ++ [name] ++ [target]) := by
  constructor
  · refine List.isChain_append.2 ⟨trail.linked, List.isChain_singleton _, ?_⟩
    simpa using refers
  · refine List.nodup_append.2 ⟨trail.distinct, by simp, ?_⟩
    rintro met listed _ isTarget rfl
    obtain rfl := List.mem_singleton.1 isTarget
    exact fresh listed

private theorem dropLast_subset_sources (linked : names.IsChain (Refers references)) :
    names.dropLast ⊆ references.map StatementReference.source := by
  induction names with
  | nil => exact List.nil_subset _
  | cons first rest ih =>
    cases rest with
    | nil => exact List.nil_subset _
    | cons second rest =>
      obtain ⟨⟨edge, recorded, rfl, -⟩, others⟩ := List.isChain_cons_cons.1 linked
      exact List.cons_subset.2 ⟨List.mem_map_of_mem recorded, ih others⟩

/-- Every name on a trail but the last has a reference of its own. -/
theorem length_le (trail : Trail references names) : names.length ≤ references.length + 1 := by
  have distinct : names.dropLast.Nodup := trail.distinct.sublist (List.dropLast_sublist _)
  have bound := (distinct.subperm (dropLast_subset_sources trail.linked)).length_le
  rw [List.length_dropLast, List.length_map] at bound
  omega

/-- A reference from the end of a trail back to a name on it closes a cycle. -/
theorem reaches_self {edge : StatementReference} (trail : Trail references (name :: names))
    (recorded : edge ∈ references) (closing : edge.source ∈ (name :: names).getLast?)
    (back : edge.target = name) : Relation.TransGen (Refers references) name name := by
  have inhabited := List.cons_ne_nil name names
  have path := List.relationReflTransGen_of_exists_isChain _ trail.linked inhabited
  rw [List.getLast?_eq_some_getLast inhabited, Option.mem_some_iff] at closing
  rw [closing, List.head_cons] at path
  exact .tail' path ⟨edge, recorded, rfl, back⟩

end Trail

end Symbols

/-- The names of a cycle are a trail that ends with its first name again, and its span is that
of a reference that leads from the last name of the trail back to the first. -/
def ReferenceCycle.Recorded (references : List StatementReference) (cycle : ReferenceCycle) :
    Prop :=
  ∃ first rest, cycle.names = first :: rest ++ [first] ∧ Symbols.Trail references (first :: rest) ∧
    ∃ edge ∈ references, edge.source ∈ (first :: rest).getLast? ∧ edge.target = first ∧
      edge.span = cycle.span

theorem ReferenceCycle.Recorded.not_acyclic {references : List StatementReference}
    {cycle : ReferenceCycle} (isCycle : cycle.Recorded references) :
    ¬Symbols.Acyclic (Symbols.Refers references) := by
  obtain ⟨first, rest, -, trail, edge, recorded, closing, back, -⟩ := isCycle
  exact fun acyclic => acyclic first (trail.reaches_self recorded closing back)

namespace Symbols

variable {references : List StatementReference}

/-! ### The search -/

/-- Where a trail meets a name again, it is a cycle from there on. -/
private theorem recorded_of_mem {names : List String} {edge : StatementReference}
    (trail : Trail references (names ++ [edge.source])) (recorded : edge ∈ references)
    (met : edge.target ∈ names ++ [edge.source]) :
    ReferenceCycle.Recorded references
      ⟨(names ++ [edge.source]).dropWhile (· != edge.target) ++ [edge.target], edge.span⟩ := by
  have ends : edge.source ∈ (names ++ [edge.source]).getLast? := by simp
  obtain ⟨before, after, isTrail, first⟩ := List.eq_append_cons_of_mem met
  rw [isTrail] at trail ends ⊢
  have dropped : (before ++ edge.target :: after).dropWhile (· != edge.target) =
      edge.target :: after := by
    rw [List.dropWhile_append_of_pos]
    · simp
    · intro name listed
      simpa using fun same : name = edge.target => first (same ▸ listed)
  refine ⟨edge.target, after, by rw [dropped], trail.right_of_append, edge, recorded, ?_, rfl, rfl⟩
  rwa [List.getLast?_append_cons] at ends

/-- After the targets have been followed, they are cleared, and so is what was before. -/
private structure Followed (references : List StatementReference)
    (settled targets settled' : List String) : Prop where
  cleared : Cleared references settled'
  kept : settled ⊆ settled'
  found : targets ⊆ settled'

namespace Followed

variable {settled settled' settled'' targets done : List String} {name : String}

private theorem none (cleared : Cleared references settled) :
    Followed references settled [] settled :=
  ⟨cleared, List.Subset.refl _, List.nil_subset _⟩

private theorem snoc (earlier : Followed references settled done settled')
    (next : Followed references settled' [name] settled'') :
    Followed references settled (done ++ [name]) settled'' where
  cleared := next.cleared
  kept := List.Subset.trans earlier.kept next.kept
  found := List.append_subset.2 ⟨List.Subset.trans earlier.found next.kept, next.found⟩

/-- A name is cleared when all that it refers to is. -/
private theorem closed (ahead : Followed references settled targets settled')
    (all : ∀ target, Refers references name target → target ∈ targets) :
    Followed references settled [name] (settled' ++ [name]) where
  cleared := .snoc ahead.cleared fun target refers => ahead.found (all target refers)
  kept := List.Subset.trans ahead.kept (List.subset_append_left ..)
  found := List.subset_append_right ..

end Followed

/-- Following a name that extends a trail clears it, or finds a cycle. The steps suffice: there
is one for each name that can still be put on the trail. -/
private theorem follow_ends (fuel : Nat) {trail settled : List String} {name : String}
    (longer : Trail references (trail ++ [name])) (cleared : Cleared references settled)
    (enough : references.length < trail.length + fuel) :
    Ends (Followed references settled [name]) (ReferenceCycle.Recorded references)
      (follow references fuel trail settled name) := by
  induction fuel generalizing trail settled name with
  | zero =>
    have bound := longer.length_le
    rw [List.length_append, List.length_singleton] at bound
    omega
  | succ fuel ih =>
    unfold follow
    split
    case isTrue known =>
      exact ⟨cleared, List.Subset.refl _, by simpa using known⟩
    case isFalse =>
      refine Ends.bind (Ends.foldlM
        (P := fun done => Followed references settled (done.map StatementReference.target))
        ?_ (.none cleared)) fun settled' ahead => ahead.closed ?_
      · intro done edge listed settled' earlier
        obtain ⟨recorded, isSource⟩ := List.mem_filter.1 listed
        obtain rfl : edge.source = name := by simpa using isSource
        split
        case isTrue met => exact recorded_of_mem longer recorded (by simpa using met)
        case isFalse fresh =>
          have refers : Refers references edge.source edge.target := ⟨edge, recorded, rfl, rfl⟩
          have longer' := longer.snoc refers (by simpa using fresh)
          rw [List.map_append, List.map_singleton]
          refine (ih longer' earlier.cleared ?_).mono fun _ next => earlier.snoc next
          rw [List.length_append, List.length_singleton]
          omega
      · rintro _ ⟨edge, recorded, isSource, rfl⟩
        exact List.mem_map_of_mem (List.mem_filter.2 ⟨recorded, by simpa using isSource⟩)

/-- The whole search clears every name that refers to another one, or finds a cycle. -/
private theorem search_ends (references : List StatementReference) :
    let sources := references.map StatementReference.source
    Ends (Followed references [] sources) (ReferenceCycle.Recorded references)
      (sources.foldlM (follow references (sources.length + 1) []) []) := by
  refine Ends.foldlM (fun done name _ settled earlier => ?_) (.none .nil)
  have alone : Trail references [name] := ⟨List.isChain_singleton _, by simp⟩
  refine (follow_ends _ alone earlier.cleared ?_).mono fun _ next => earlier.snoc next
  simp

/-- What the search reports is a cycle of the recorded references. -/
theorem recorded_of_cycle? {symbols : Symbols} {cycle : ReferenceCycle}
    (found : symbols.cycle? = some cycle) : cycle.Recorded symbols.references := by
  have ends := search_ends symbols.references
  unfold cycle? at found
  dsimp only at ends found
  split at found
  case h_1 => cases found
  case h_2 cause stopped =>
    rw [stopped] at ends
    exact Option.some.inj found ▸ ends

/-- The search reports a cycle exactly if there is one. -/
theorem cycle?_eq_none_iff {symbols : Symbols} :
    symbols.cycle? = none ↔ Acyclic (Refers symbols.references) := by
  constructor
  · intro unfound name cycle
    have ends := search_ends symbols.references
    unfold cycle? at unfound
    dsimp only at ends unfound
    split at unfound
    case h_1 settled done =>
      rw [done] at ends
      obtain ⟨_, ⟨edge, recorded, rfl, -⟩, -⟩ := Relation.TransGen.head'_iff.1 cycle
      exact ends.cleared.not_reaches_self (ends.found (List.mem_map_of_mem recorded)) cycle
    case h_2 => cases unfound
  · intro acyclic
    cases found : symbols.cycle? with
    | none => rfl
    | some cycle => exact absurd acyclic (recorded_of_cycle? found).not_acyclic

/-! ### Recording -/

variable {symbols : Symbols} {first second : String}

/-- A reference is recorded beside those that were there. -/
theorem refers_refer {source target : String} {span : Span} :
    Refers (symbols.refer source target span).references first second ↔
      Refers symbols.references first second ∨ source = first ∧ target = second := by
  unfold refer
  split
  case isTrue known =>
    obtain ⟨edge, recorded, same⟩ := List.any_eq_true.1 known
    simp only [Bool.and_eq_true, beq_iff_eq] at same
    obtain ⟨rfl, rfl⟩ := same
    refine ⟨.inl, Or.rec id ?_⟩
    rintro ⟨rfl, rfl⟩
    exact ⟨edge, recorded, rfl, rfl⟩
  case isFalse =>
    simp only [Refers, List.mem_append, List.mem_singleton, or_and_right, exists_or, exists_eq_left]

private theorem refers_foldl_refer {source : String} {targets : List (String × Span)} :
    Refers (targets.foldl (fun symbols (target, span) => symbols.refer source target span)
        symbols).references first second ↔
      Refers symbols.references first second ∨
        source = first ∧ ∃ span, (second, span) ∈ targets := by
  induction targets generalizing symbols with
  | nil => simp
  | cons place rest ih =>
    obtain ⟨target, span⟩ := place
    rw [List.foldl_cons, ih, refers_refer]
    simp only [List.mem_cons, Prod.mk.injEq, exists_or, exists_and_left, exists_eq, and_true]
    grind

end Symbols

namespace Bind

open Symbols

variable {symbols : Symbols} {first second : String}

/-- The statement has a call that asks about a statement of this name. -/
def AsksAbout (statement : Statement) (name : String) : Prop :=
  ∃ span, (name, span) ∈ (expressions statement).flatMap referentsOf

/-- A named statement refers to the statements that it asks about. -/
theorem refers_recordReferences {statement : Statement} :
    Refers (recordReferences symbols statement).references first second ↔
      Refers symbols.references first second ∨
        statement.name? = some first ∧ AsksAbout statement second := by
  unfold recordReferences
  split
  case h_1 name isName =>
    rw [refers_foldl_refer, isName, Option.some.injEq]
    rfl
  case h_2 isName => simp [isName]

theorem refers_foldl_recordReferences {statements : List Statement} :
    Refers (statements.foldl recordReferences symbols).references first second ↔
      Refers symbols.references first second ∨
        ∃ statement ∈ statements, statement.name? = some first ∧ AsksAbout statement second := by
  induction statements generalizing symbols with
  | nil => simp
  | cons statement rest ih =>
    rw [List.foldl_cons, ih, refers_recordReferences, List.exists_mem_cons_iff, or_assoc]

theorem checkCycle_eq_ok : checkCycle symbols = .ok () ↔ Acyclic (Refers symbols.references) := by
  rw [← cycle?_eq_none_iff]
  unfold checkCycle
  cases symbols.cycle? <;> simp

end Bind

end EventQuery
