import Mathlib.Data.List.Forall2

/-!
What results of steps that may fail have to do with each other: what a success of a
composed step says about its parts, when one result refines another, and how a result
may end at all.
-/
namespace EventQuery.Outcome

variable {ε ε' α β γ δ : Type}

/-! ### Success -/

@[simp] theorem bind_eq_ok {result : Except ε α} {next : α → Except ε β} {value : β} :
    (result >>= next) = .ok value ↔ ∃ part, result = .ok part ∧ next part = .ok value := by
  constructor
  · intro success
    cases result with
    | ok part => exact ⟨part, rfl, success⟩
    | error cause => cases success
  · rintro ⟨part, rfl, success⟩
    exact success

@[simp] theorem map_eq_ok {result : Except ε α} {change : α → β} {value : β} :
    change <$> result = .ok value ↔ ∃ part, result = .ok part ∧ change part = value := by
  constructor
  · intro success
    cases result with
    | ok part => exact ⟨part, rfl, Except.ok.inj success⟩
    | error cause => cases success
  · rintro ⟨part, rfl, rfl⟩
    rfl

@[simp] theorem pure_eq_ok {part value : α} :
    (pure part : Except ε α) = .ok value ↔ part = value :=
  ⟨Except.ok.inj, congrArg Except.ok⟩

@[simp] theorem throw_eq_ok {cause : ε} {value : α} :
    (throw cause : Except ε α) = .ok value ↔ False :=
  iff_false_intro fun success => by cases success

theorem forM_eq_ok {check : α → Except ε Unit} {parts : List α} :
    parts.forM check = .ok () ↔ ∀ part ∈ parts, check part = .ok () := by
  simp only [List.forM_eq_forM]
  induction parts with
  | nil => exact ⟨fun _ => List.forall_mem_nil _, fun _ => rfl⟩
  | cons part rest ih =>
    rw [List.forM_cons, bind_eq_ok, List.forall_mem_cons]
    constructor
    · rintro ⟨_, first, others⟩
      exact ⟨first, ih.1 others⟩
    · rintro ⟨first, others⟩
      exact ⟨(), first, ih.2 others⟩

/-- A pass over a list that treats the first part and then the others. -/
theorem forall₂_cons_eq_ok {f : α → Except ε β} {part : α} {rest : List α} {values : List β} :
    (∃ value, f part = .ok value ∧ ∃ others,
        List.Forall₂ (fun part value => f part = .ok value) rest others ∧
          value :: others = values) ↔
      List.Forall₂ (fun part value => f part = .ok value) (part :: rest) values := by
  rw [List.forall₂_cons_left_iff]
  constructor
  · rintro ⟨value, first, others, succeed, rfl⟩
    exact ⟨value, others, first, succeed, rfl⟩
  · rintro ⟨value, others, first, succeed, rfl⟩
    exact ⟨value, first, others, succeed, rfl⟩

/-- A pass over a list succeeds part by part. -/
theorem mapM_eq_ok {f : α → Except ε β} {parts : List α} {values : List β} :
    parts.mapM f = .ok values ↔
      List.Forall₂ (fun part value => f part = .ok value) parts values := by
  induction parts generalizing values with
  | nil =>
    rw [List.mapM_nil, pure_eq_ok, List.forall₂_nil_left_iff]
    exact eq_comm
  | cons part rest ih =>
    simp only [List.mapM_cons, bind_eq_ok, pure_eq_ok, ih]
    exact forall₂_cons_eq_ok

theorem length_of_mapM {f : α → Except ε β} {parts : List α} {values : List β}
    (succeeds : parts.mapM f = .ok values) : values.length = parts.length :=
  (mapM_eq_ok.1 succeeds).length_eq.symm

/-- A pass over a part that may be left out succeeds if the part does. -/
theorem option_mapM_eq_ok {f : α → Except ε β} {part : Option α} {value : Option β} :
    part.mapM f = .ok value ↔ Option.Rel (fun part value => f part = .ok value) part value := by
  cases part with
  | none =>
    constructor
    · rintro ⟨⟩
      exact .none
    · intro related
      cases related
      rfl
  | some part =>
    constructor
    · intro succeeds
      obtain ⟨found, same, rfl⟩ := map_eq_ok.1 succeeds
      exact .some same
    · intro related
      cases related with
      | some succeeds => exact map_eq_ok.2 ⟨_, succeeds, rfl⟩

/-- What a pass over a part that may be left out makes of it. -/
theorem rel_of_option_mapM {f : α → Except ε β} {R : α → β → Prop} {part : Option α}
    {value : Option β} (succeeds : part.mapM f = .ok value)
    (each : ∀ part value, f part = .ok value → R part value) : Option.Rel R part value := by
  cases option_mapM_eq_ok.1 succeeds with
  | none => exact .none
  | some found => exact .some (each _ _ found)

/-- What a pass over a list makes of each part. -/
theorem forall₂_of_mapM {f : α → Except ε β} {R : α → β → Prop} {parts : List α} {values : List β}
    (succeeds : parts.mapM f = .ok values)
    (each : ∀ part value, f part = .ok value → R part value) : List.Forall₂ R parts values :=
  (mapM_eq_ok.1 succeeds).imp each

/-- Lists whose parts have the same in common, one by one. -/
theorem map_eq_of_forall₂ {before : α → γ} {after : β → γ} {parts : List α} {values : List β}
    (same : List.Forall₂ (fun part value => after value = before part) parts values) :
    values.map after = parts.map before := by
  induction same with
  | nil => rfl
  | cons first _ ih => rw [List.map_cons, List.map_cons, first, ih]

/-- A pass over a list keeps what it keeps of each part. -/
theorem map_eq_of_mapM {f : α → Except ε β} {before : α → γ} {after : β → γ} {parts : List α}
    {values : List β} (succeeds : parts.mapM f = .ok values)
    (each : ∀ part value, f part = .ok value → after value = before part) :
    values.map after = parts.map before :=
  map_eq_of_forall₂ (forall₂_of_mapM succeeds each)

/-- A pass over a list that puts something new into each part keeps what is the same whatever it
puts there. -/
theorem map_eq_of_mapM_pure {f : α → Except ε δ} {change : α → δ → β} {before : α → γ}
    {after : β → γ} {parts : List α} {values : List β}
    (succeeds : (parts.mapM fun part => do return change part (← f part)) = .ok values)
    (each : ∀ part new, after (change part new) = before part) :
    values.map after = parts.map before := by
  refine map_eq_of_mapM succeeds fun part value found => ?_
  simp only [bind_eq_ok, pure_eq_ok] at found
  obtain ⟨new, -, rfl⟩ := found
  exact each part new

/-- A pass over a part that may be left out keeps what it keeps of the part. -/
theorem map_eq_of_option_mapM {f : α → Except ε β} {before : α → γ} {after : β → γ}
    {part : Option α} {value : Option β} (succeeds : part.mapM f = .ok value)
    (each : ∀ part value, f part = .ok value → after value = before part) :
    value.map after = part.map before := by
  cases option_mapM_eq_ok.1 succeeds with
  | none => rfl
  | some found => exact congrArg some (each _ _ found)

/-! ### Passes that settle -/

/-- What the pass gives, it leaves as it is. -/
def Settles (f : α → Except ε α) : Prop :=
  ∀ {part value : α}, f part = .ok value → f value = .ok value

namespace Settles

variable {f : α → Except ε α}

theorem list (settles : Settles f) : Settles fun parts : List α => parts.mapM f := by
  intro parts values succeeds
  have related := mapM_eq_ok.1 succeeds
  refine mapM_eq_ok.2 ?_
  clear succeeds
  induction related with
  | nil => exact .nil
  | cons first _ ih => exact .cons (settles first) ih

theorem option (settles : Settles f) : Settles fun part : Option α => part.mapM f := by
  intro part value succeeds
  refine option_mapM_eq_ok.2 ?_
  cases option_mapM_eq_ok.1 succeeds with
  | none => exact .none
  | some found => exact .some (settles found)

end Settles

/-! ### Refinement -/

/-- Whenever the first result is a success, the second one is too, with a related
value. Nothing is said about a first result that is a failure. -/
def Refines (R : α → β → Prop) (first : Except ε α) (second : Except ε' β) : Prop :=
  ∀ value, first = .ok value → ∃ value', second = .ok value' ∧ R value value'

namespace Refines

theorem ok {R : α → β → Prop} {value : α} {value' : β} (related : R value value') :
    Refines R (.ok value : Except ε α) (.ok value' : Except ε' β) := by
  rintro found ⟨⟩
  exact ⟨value', rfl, related⟩

theorem error {R : α → β → Prop} {cause : ε} {second : Except ε' β} :
    Refines R (.error cause) second := fun _ success => by cases success

theorem rfl {R : α → α → Prop} (reflexive : ∀ value, R value value) {result : Except ε α} :
    Refines R result result :=
  fun value found => ⟨value, found, reflexive value⟩

theorem trans {R : α → α → Prop} (transitive : ∀ {a b c}, R a b → R b c → R a c)
    {first second third : Except ε α} (earlier : Refines R first second)
    (later : Refines R second third) : Refines R first third := by
  intro value found
  obtain ⟨value', found', related⟩ := earlier value found
  obtain ⟨value'', found'', related'⟩ := later value' found'
  exact ⟨value'', found'', transitive related related'⟩

theorem bind {R : α → β → Prop} {S : γ → δ → Prop} {first : Except ε α}
    {second : Except ε' β} {next : α → Except ε γ} {next' : β → Except ε' δ}
    (parts : Refines R first second)
    (rest : ∀ value value', R value value' → Refines S (next value) (next' value')) :
    Refines S (first >>= next) (second >>= next') := by
  intro result succeeds
  obtain ⟨value, found, succeeds⟩ := bind_eq_ok.1 succeeds
  obtain ⟨value', found', related⟩ := parts value found
  obtain ⟨result', succeeds', related'⟩ := rest value value' related result succeeds
  exact ⟨result', bind_eq_ok.2 ⟨value', found', succeeds'⟩, related'⟩

/-- Steps over the same values refine each other if their continuations do. -/
theorem bind_eq {S : γ → δ → Prop} {first second : Except ε α} {next : α → Except ε γ}
    {next' : α → Except ε δ} (parts : Refines Eq first second)
    (rest : ∀ value, Refines S (next value) (next' value)) :
    Refines S (first >>= next) (second >>= next') :=
  parts.bind fun value _ same => same ▸ rest value

theorem mapM {ι : Type} {f g : ι → Except ε α} {places : List ι}
    (each : ∀ place ∈ places, Refines Eq (f place) (g place)) :
    Refines Eq (places.mapM f) (places.mapM g) := by
  induction places with
  | nil => exact .rfl fun _ => Eq.refl _
  | cons place rest ih =>
    obtain ⟨first, others⟩ := List.forall_mem_cons.1 each
    simp only [List.mapM_cons]
    exact first.bind_eq fun _ => (ih others).bind_eq fun _ => .rfl fun _ => Eq.refl _

theorem option {ι : Type} {f g : ι → Except ε α} {place : Option ι}
    (each : ∀ place, Refines Eq (f place) (g place)) :
    Refines Eq (place.mapM f) (place.mapM g) := by
  cases place with
  | none => exact .rfl fun _ => Eq.refl _
  | some place =>
    rintro _ succeeds
    obtain ⟨value, found, rfl⟩ := map_eq_ok.1 succeeds
    obtain ⟨_, found', rfl⟩ := each place value found
    exact ⟨some value, map_eq_ok.2 ⟨value, found', Eq.refl _⟩, Eq.refl _⟩

end Refines

/-! ### Endings -/

/-- A success has a good value and a failure an allowed cause. -/
def Ends (good : α → Prop) (allowed : ε → Prop) : Except ε α → Prop
  | .ok value => good value
  | .error cause => allowed cause

namespace Ends

variable {good : α → Prop} {allowed : ε → Prop}

theorem mono {good' : α → Prop} {result : Except ε α} (ends : Ends good allowed result)
    (better : ∀ value, good value → good' value) : Ends good' allowed result := by
  cases result with
  | ok value => exact better value ends
  | error cause => exact ends

theorem bind {good' : β → Prop} {result : Except ε α} {next : α → Except ε β}
    (parts : Ends good allowed result)
    (rest : ∀ value, good value → Ends good' allowed (next value)) :
    Ends good' allowed (result >>= next) := by
  cases result with
  | ok value => exact rest value parts
  | error cause => exact parts

theorem mapError {allowed' : ε' → Prop} {result : Except ε α} {change : ε → ε'}
    (ends : Ends good allowed result) (kept : ∀ cause, allowed cause → allowed' (change cause)) :
    Ends good allowed' (result.mapError change) := by
  cases result with
  | ok value => exact ends
  | error cause => exact kept cause ends

theorem mapM {ι : Type} {f : ι → Except ε α} {places : List ι}
    (each : ∀ place ∈ places, Ends good allowed (f place)) :
    Ends (fun values => ∀ value ∈ values, good value) allowed (places.mapM f) := by
  induction places with
  | nil => exact List.forall_mem_nil _
  | cons place rest ih =>
    obtain ⟨first, others⟩ := List.forall_mem_cons.1 each
    rw [List.mapM_cons]
    refine first.bind fun value isGood => (ih others).bind fun values areGood => ?_
    exact List.forall_mem_cons.2 ⟨isGood, areGood⟩

private theorem foldlM_after {ι : Type} {step : α → ι → Except ε α} {P : List ι → α → Prop}
    {done places : List ι} {state : α}
    (each : ∀ done, ∀ place ∈ places, ∀ state, P done state →
      Ends (P (done ++ [place])) allowed (step state place))
    (start : P done state) :
    Ends (P (done ++ places)) allowed (places.foldlM step state) := by
  induction places generalizing done state with
  | nil => rwa [List.append_nil]
  | cons place rest ih =>
    rw [List.foldlM_cons, List.append_cons]
    refine (each done place (List.mem_cons_self ..) state start).bind fun next held => ?_
    exact ih (fun done place later => each done place (List.mem_cons_of_mem _ later)) held

/-- What every step of a pass over a list carries on from the places before it, holds of all
places in the end. -/
theorem foldlM {ι : Type} {step : α → ι → Except ε α} {P : List ι → α → Prop}
    {places : List ι} {state : α}
    (each : ∀ done, ∀ place ∈ places, ∀ state, P done state →
      Ends (P (done ++ [place])) allowed (step state place))
    (start : P [] state) : Ends (P places) allowed (places.foldlM step state) :=
  foldlM_after each start

end Ends

end EventQuery.Outcome
