import EventQuery.Proofs.Production

/-!
The calls of productions that call one another. What a production does, given what the others do,
is told by the calls it makes: whatever a call fails with the production fails with, and once all
of them are answered the result is known. `Walks` collects the calls of a production step by step,
together with the way of the cursor; `Turns` does so for one round of a loop, where what is called
is the loop again.
-/
namespace EventQuery.Reading

variable {τ κ α β γ : Type}

/-! ### The way of the cursor -/

namespace Cursor

/-- Reading on from the first cursor leads to the second. -/
def Reaches (cursor cursor' : Cursor τ) : Prop := cursor'.rest <:+ cursor.rest

/-- On the way at least one token is read. -/
def Passes (cursor cursor' : Cursor τ) : Prop :=
  cursor.Reaches cursor' ∧ cursor'.rest.length < cursor.rest.length

variable {cursor cursor' cursor'' : Cursor τ}

theorem Reaches.refl (cursor : Cursor τ) : cursor.Reaches cursor := List.suffix_refl _

theorem Reaches.trans (first : cursor.Reaches cursor') (second : cursor'.Reaches cursor'') :
    cursor.Reaches cursor'' := List.IsSuffix.trans second first

theorem Reaches.length_le (reaches : cursor.Reaches cursor') :
    cursor'.rest.length ≤ cursor.rest.length := List.IsSuffix.length_le reaches

theorem Passes.trans_reaches (first : cursor.Passes cursor') (second : cursor'.Reaches cursor'') :
    cursor.Passes cursor'' :=
  ⟨first.1.trans second, Nat.lt_of_le_of_lt second.length_le first.2⟩

theorem Reaches.trans_passes (first : cursor.Reaches cursor') (second : cursor'.Passes cursor'') :
    cursor.Passes cursor'' :=
  ⟨first.trans second.1, Nat.lt_of_lt_of_le second.2 first.length_le⟩

theorem passes_behind {placed : Placed τ} {rest : List (Placed τ)}
    (shape : cursor.rest = placed :: rest) : cursor.Passes (cursor.behind placed rest) := by
  refine ⟨?_, ?_⟩
  · rw [Reaches, shape]
    exact List.suffix_cons placed rest
  · rw [shape]
    exact Nat.lt_succ_self _

/-- The cursors are in the order in which reading comes to them. -/
abbrev InOrder (cursors : List (Cursor τ)) : Prop := cursors.Pairwise Reaches

theorem InOrder.cons {more : List (Cursor τ)} (reaches : cursor.Reaches cursor')
    (behind : InOrder (cursor' :: more)) : InOrder (cursor :: cursor' :: more) := by
  refine List.pairwise_cons.2 ⟨List.forall_mem_cons.2 ⟨reaches, fun later listed => ?_⟩, behind⟩
  exact reaches.trans ((List.pairwise_cons.1 behind).1 later listed)

theorem InOrder.append {first second : List (Cursor τ)} (before : InOrder (first ++ [cursor]))
    (behind : InOrder (cursor :: second)) : InOrder (first ++ cursor :: second) := by
  obtain ⟨before, -, reaches⟩ := List.pairwise_append.1 before
  refine List.pairwise_append.2 ⟨before, behind, fun earlier listed => ?_⟩
  have reaches := reaches earlier listed cursor List.mem_cons_self
  exact List.forall_mem_cons.2 ⟨reaches, fun later listed' =>
    reaches.trans ((List.pairwise_cons.1 behind).1 later listed')⟩

theorem InOrder.join {first second : List (Cursor τ)} (before : InOrder (first ++ [cursor]))
    (behind : InOrder (cursor :: second)) : InOrder (first ++ second) :=
  (before.append behind).sublist
    ((List.append_sublist_append_left first).2 (List.sublist_cons_self ..))

end Cursor

/-- Wherever the reader succeeds, it has read at least one token. -/
def Consumes (reader : Reader τ α) : Prop :=
  ∀ cursor, Leads cursor reader fun _ cursor' => cursor.Passes cursor'

/-- A look at the cursor. -/
theorem leads_looked {reader : Reader τ α} {cursor : Cursor τ} {value : α}
    (runs : StateT.run reader cursor = .ok (value, cursor)) :
    Leads cursor reader fun value' cursor' => value' = value ∧ cursor' = cursor := by
  intro value' cursor' runs'
  cases runs.symm.trans runs'
  exact ⟨rfl, rfl⟩

/-- Whether the token is there or not. -/
theorem leads_skipped [DecidableEq τ] {token : τ} {cursor : Cursor τ} :
    Leads cursor (Reader.skip token) fun found cursor' =>
      found = true ∧ cursor.Passes cursor' ∨ found = false ∧ cursor' = cursor := by
  rw [← bind_pure (Reader.skip token)]
  exact .skip (fun _ _ shape _ => .pure (.inl ⟨rfl, Cursor.passes_behind shape⟩))
    fun _ => .pure (.inr ⟨rfl, rfl⟩)

/-- The reader never moves the cursor back. -/
def Forward (reader : Reader τ α) : Prop :=
  ∀ cursor, Leads cursor reader fun _ cursor' => cursor.Reaches cursor'

namespace Forward

variable {reader : Reader τ α}

theorem bind {next : α → Reader τ β} (first : Forward reader)
    (rest : ∀ value, Forward (next value)) : Forward (reader >>= next) := by
  intro cursor
  refine (first cursor).bind fun value cursor' reaches => ?_
  exact (rest value cursor').mono fun _ _ reaches' => reaches.trans reaches'

/-- Two ways to come to the same. -/
theorem either {choice : Prop} [Decidable choice] {other : Reader τ α} {next : α → Reader τ β}
    (first : Forward reader) (second : Forward other) (rest : ∀ value, Forward (next value)) :
    Forward (if choice then reader >>= next else other >>= next) := by
  split
  · exact first.bind rest
  · exact second.bind rest

theorem pure {value : α} : Forward (Pure.pure value : Reader τ α) := fun cursor =>
  .pure (.refl cursor)

theorem fail {span : Span} {message : String} : Forward (Reader.fail span message : Reader τ α) :=
  fun _ => .fail

/-- A look at the cursor. -/
theorem look {value : Cursor τ → α}
    (looks : ∀ cursor, StateT.run reader cursor = .ok (value cursor, cursor)) : Forward reader := by
  refine fun cursor => (leads_looked (looks cursor)).mono ?_
  rintro _ _ ⟨-, rfl⟩
  exact .refl _

theorem stay (stays : ∀ cursor, Leads cursor reader fun _ cursor' => cursor' = cursor) :
    Forward reader := fun cursor => (stays cursor).mono fun _ _ same => same ▸ .refl cursor

theorem advance : Forward (Reader.advance : Reader τ Unit) := by
  rintro ⟨rest, last, stop⟩ _ _ ⟨⟩
  cases rest with
  | nil => exact .refl _
  | cons placed others => exact (Cursor.passes_behind rfl).1

theorem skip [DecidableEq τ] {token : τ} : Forward (Reader.skip token) := by
  refine fun cursor => leads_skipped.mono ?_
  rintro found cursor' (⟨-, passes⟩ | ⟨-, rfl⟩)
  · exact passes.1
  · exact .refl cursor'

end Forward

namespace Consumes

variable {reader : Reader τ α} {change : α → γ}

theorem forward (consumes : Consumes reader) : Forward reader := fun cursor =>
  (consumes cursor).mono fun _ _ passes => passes.1

theorem map (consumes : Consumes reader) : Consumes (change <$> reader) := fun cursor =>
  (consumes cursor).map fun _ _ passes => passes

/-- Behind a token the cursor only has to move forward. -/
theorem bind {next : α → Reader τ β} (consumes : Consumes reader)
    (rest : ∀ value, Forward (next value)) : Consumes (reader >>= next) := fun cursor =>
  (consumes cursor).bind fun value cursor' passes =>
    (rest value cursor').mono fun _ _ reaches => passes.trans_reaches reaches

/-- The token may be read later. -/
theorem later {next : α → Reader τ β} (forward : Forward reader)
    (rest : ∀ value, Consumes (next value)) : Consumes (reader >>= next) := fun cursor =>
  (forward cursor).bind fun value cursor' reaches =>
    (rest value cursor').mono fun _ _ passes => reaches.trans_passes passes

end Consumes

/-! ### Calls -/

/-- A production that was entered: where, and how it ended. -/
structure Call (κ τ β : Type) where
  production : κ
  cursor : Cursor τ
  outcome : Except ReadError (β × Cursor τ)

/-- Where the cursor is when a production has succeeded. -/
def ending : Except ReadError (α × Cursor τ) → List (Cursor τ)
  | .ok (_, cursor) => [cursor]
  | .error _ => []

/-- Where the cursor is when the production is entered and when it is left. -/
def Call.moments (call : Call κ τ β) : List (Cursor τ) := call.cursor :: ending call.outcome

/-- These productions would have given the outcome. -/
def Call.AnsweredBy (call : Call κ τ β) (productions : κ → Reader τ β) : Prop :=
  StateT.run (productions call.production) call.cursor = call.outcome

/-- From the cursor on, the body makes these calls one after the other: with the calls before it
answered, a call that fails makes it fail likewise, and with all of them answered it has the
result, whatever the productions do elsewhere. -/
structure Follows (body : (κ → Reader τ β) → Reader τ α) (cursor : Cursor τ)
    (calls : List (Call κ τ β)) (result : Except ReadError (α × Cursor τ)) : Prop where
  enters : ∀ before call after, calls = before ++ call :: after →
    ∀ productions, (∀ known ∈ before, known.AnsweredBy productions) →
    ∀ cause, StateT.run (productions call.production) call.cursor = .error cause →
      StateT.run (body productions) cursor = .error cause
  ends : ∀ productions, (∀ call ∈ calls, call.AnsweredBy productions) →
    StateT.run (body productions) cursor = result

namespace Follows

variable {cursor cursor' : Cursor τ} {calls calls' : List (Call κ τ β)}
  {body : (κ → Reader τ β) → Reader τ α} {next : α → (κ → Reader τ β) → Reader τ γ}

theorem steps (reader : Reader τ α) :
    Follows (fun _ : κ → Reader τ β => reader) cursor [] (StateT.run reader cursor) where
  enters _ _ _ split :=
    absurd split.symm (List.append_ne_nil_of_right_ne_nil _ (List.cons_ne_nil _ _))
  ends _ _ := rfl

theorem call (production : κ) (outcome : Except ReadError (β × Cursor τ)) :
    Follows (fun productions => productions production) cursor [⟨production, cursor, outcome⟩]
      outcome where
  enters before call after split productions _ cause fails := by
    rcases List.singleton_eq_append_iff.1 split with ⟨-, same⟩ | ⟨-, none⟩
    · obtain rfl := (List.cons.inj same).1
      exact fails
    · cases none
  ends productions answered := answered _ List.mem_cons_self

theorem bind_error {cause : ReadError} (first : Follows body cursor calls (.error cause)) :
    Follows (fun productions => body productions >>= fun value => next value productions) cursor
      calls (.error cause) where
  enters before call after split productions answered cause' fails := by
    rw [StateT.run_bind, first.enters before call after split productions answered cause' fails]
    rfl
  ends productions answered := by
    rw [StateT.run_bind, first.ends productions answered]
    rfl

theorem bind_ok {value : α} {result : Except ReadError (γ × Cursor τ)}
    (first : Follows body cursor calls (.ok (value, cursor')))
    (second : Follows (next value) cursor' calls' result) :
    Follows (fun productions => body productions >>= fun value => next value productions) cursor
      (calls ++ calls') result where
  enters before call after split productions answered cause fails := by
    rw [StateT.run_bind]
    -- the call is one of the second part, its first one, or one of the first part
    rcases List.append_eq_append_iff.1 split with ⟨between, rfl, behind⟩ | ⟨between, front, same⟩
    · rw [first.ends productions fun known listed => answered known (List.mem_append_left _ listed)]
      refine second.enters between call after behind productions (fun known listed => ?_) cause fails
      exact answered known (List.mem_append_right _ listed)
    · rcases List.append_eq_cons_iff.1 same.symm with ⟨rfl, split'⟩ | ⟨after', rfl, -⟩
      · rw [List.append_nil] at front
        subst front
        rw [first.ends productions answered]
        exact second.enters [] call after split' productions (List.forall_mem_nil _) cause fails
      · rw [first.enters before call after' front productions answered cause fails]
        rfl
  ends productions answered := by
    rw [StateT.run_bind, first.ends productions fun call listed =>
      answered call (List.mem_append_left _ listed)]
    exact second.ends productions fun call listed => answered call (List.mem_append_right _ listed)

/-- Before a success, no call has failed. -/
theorem isOk_of_ok {productions : κ → Reader τ β} {value : α}
    (follows : Follows body cursor calls (.ok (value, cursor')))
    (answered : ∀ call ∈ calls, call.AnsweredBy productions) :
    ∀ call ∈ calls, call.outcome.isOk = true := by
  intro call listed
  obtain ⟨before, after, split⟩ := List.append_of_mem listed
  cases fails : call.outcome with
  | ok _ => rfl
  | error cause =>
    have earlier : ∀ known ∈ before, known.AnsweredBy productions := fun known listed =>
      answered known (split ▸ List.mem_append_left _ listed)
    have failed := follows.enters before call after split productions earlier cause
      ((answered call listed).trans fails)
    rw [follows.ends productions answered] at failed
    cases failed

end Follows

/-! ### Walks -/

/-- Given the productions, these are the calls that the body makes from the cursor on, one after
the other and all of them behind the place `start`. What is left behind a call that fails is
nothing, and a success is good. -/
structure Walk (productions : κ → Reader τ β) (start cursor : Cursor τ)
    (body : (κ → Reader τ β) → Reader τ α) (good : α → Cursor τ → Prop)
    (calls : List (Call κ τ β)) : Prop where
  follows : Follows body cursor calls (StateT.run (body productions) cursor)
  entered : ∀ call ∈ calls, call.AnsweredBy productions ∧ start.Passes call.cursor
  succeed : ∀ call ∈ calls.dropLast, call.outcome.isOk = true
  inOrder : Cursor.InOrder (cursor ::
    (calls.flatMap Call.moments ++ ending (StateT.run (body productions) cursor)))
  leads : Leads cursor (body productions) good

def Walks (productions : κ → Reader τ β) (start cursor : Cursor τ)
    (body : (κ → Reader τ β) → Reader τ α) (good : α → Cursor τ → Prop) : Prop :=
  ∃ calls, Walk productions start cursor body good calls

namespace Walks

variable {productions : κ → Reader τ β} {start cursor : Cursor τ}
  {body : (κ → Reader τ β) → Reader τ α} {next : α → (κ → Reader τ β) → Reader τ γ}
  {good : α → Cursor τ → Prop} {wanted : γ → Cursor τ → Prop}

theorem leads (walks : Walks productions start cursor body good) :
    Leads cursor (body productions) fun value cursor' =>
      cursor.Reaches cursor' ∧ good value cursor' := by
  obtain ⟨calls, -, -, -, inOrder, leads⟩ := walks
  intro value cursor' runs
  rw [runs] at inOrder
  refine ⟨(List.pairwise_cons.1 inOrder).1 cursor' ?_, leads value cursor' runs⟩
  exact List.mem_append_right _ List.mem_cons_self

/-- A reader that makes no calls. -/
theorem steps {reader : Reader τ α}
    (leads : Leads cursor reader fun value cursor' => cursor.Reaches cursor' ∧ good value cursor') :
    Walks productions start cursor (fun _ => reader) good := by
  refine ⟨[], .steps reader, List.forall_mem_nil _, List.forall_mem_nil _, ?_,
    leads.mono fun _ _ both => both.2⟩
  cases runs : StateT.run reader cursor with
  | ok result => exact List.pairwise_pair.2 (leads result.1 result.2 runs).1
  | error cause => exact List.pairwise_singleton _ _

theorem enter (production : κ) (consumes : Consumes (productions production))
    (passed : start.Passes cursor) : Walks productions start cursor
      (fun productions => productions production) fun _ cursor' => cursor.Passes cursor' := by
  refine ⟨[⟨production, cursor, StateT.run (productions production) cursor⟩], .call production _,
    List.forall_mem_singleton.2 ⟨rfl, passed⟩, List.forall_mem_nil _, ?_, consumes cursor⟩
  cases runs : StateT.run (productions production) cursor with
  | ok result =>
    have reaches := (consumes cursor result.1 result.2 runs).1
    simp [Call.moments, ending, Cursor.Reaches.refl, reaches]
  | error cause => simp [Call.moments, ending, Cursor.Reaches.refl]

/-- What is behind a later start is behind an earlier one. -/
theorem earlier {before : Cursor τ} (walks : Walks productions start cursor body good)
    (reaches : before.Reaches start) : Walks productions before cursor body good := by
  obtain ⟨calls, follows, entered, isOk, inOrder, leads⟩ := walks
  refine ⟨calls, follows, fun call listed => ?_, isOk, inOrder, leads⟩
  exact (entered call listed).imp_right reaches.trans_passes

/-- Where a token was read before, that is all it takes. -/
theorem behind (walks : Walks productions start cursor body good) {before : Cursor τ}
    (passed : before.Passes cursor) :
    Walks productions start cursor body fun _ cursor' => before.Passes cursor' := by
  have reaches := walks.leads
  obtain ⟨calls, follows, entered, isOk, inOrder, -⟩ := walks
  refine ⟨calls, follows, entered, isOk, inOrder, reaches.mono fun _ _ both => ?_⟩
  exact passed.trans_reaches both.1

theorem bind (first : Walks productions start cursor body good)
    (rest : ∀ value cursor', cursor.Reaches cursor' → good value cursor' →
      Walks productions start cursor' (next value) wanted) :
    Walks productions start cursor
      (fun productions => body productions >>= fun value => next value productions) wanted := by
  have moved := first.leads
  obtain ⟨calls, follows, entered, isOk, inOrder, leads⟩ := first
  have whole : StateT.run (body productions >>= fun value => next value productions) cursor =
      StateT.run (body productions) cursor >>= fun result =>
        StateT.run (next result.1 productions) result.2 := StateT.run_bind ..
  cases runs : StateT.run (body productions) cursor with
  | error cause =>
    rw [runs] at follows inOrder whole
    refine ⟨calls, whole ▸ follows.bind_error, entered, isOk, whole ▸ inOrder, ?_⟩
    intro value cursor' succeeds
    cases whole.symm.trans succeeds
  | ok result =>
    obtain ⟨value, cursor'⟩ := result
    rw [runs] at follows inOrder whole
    obtain ⟨reaches, holds⟩ := moved value cursor' runs
    obtain ⟨calls', follows', entered', isOk', inOrder', leads'⟩ := rest value cursor' reaches holds
    refine ⟨calls ++ calls', whole ▸ follows.bind_ok follows',
      List.forall_mem_append.2 ⟨entered, entered'⟩, ?_, ?_, ?_⟩
    · -- all calls of the first part have succeeded, since it has
      have succeeded := follows.isOk_of_ok fun call listed => (entered call listed).1
      intro call listed
      by_cases none : calls' = []
      · rw [none, List.append_nil] at listed
        exact succeeded call (List.dropLast_subset calls listed)
      · rw [List.dropLast_append_of_ne_nil none] at listed
        exact (List.mem_append.1 listed).elim (succeeded call) (isOk' call)
    · rw [whole, List.flatMap_append, List.append_assoc, ← List.cons_append]
      exact .join inOrder inOrder'
    · intro value' cursor'' succeeds
      exact leads' value' cursor'' (whole.symm.trans succeeds)

theorem map {change : α → γ} (walks : Walks productions start cursor body good)
    (better : ∀ value cursor', good value cursor' → wanted (change value) cursor') :
    Walks productions start cursor (fun productions => change <$> body productions) wanted := by
  simp only [map_eq_pure_bind]
  refine walks.bind fun value cursor' _ holds => ?_
  exact .steps (.pure ⟨.refl _, better value cursor' holds⟩)

/-! #### Steps without calls -/

/-- First a reader that makes no calls. -/
theorem after {reader : Reader τ α}
    (leads : Leads cursor reader fun value cursor' => cursor.Reaches cursor' ∧ good value cursor')
    (rest : ∀ value cursor', cursor.Reaches cursor' → good value cursor' →
      Walks productions start cursor' (next value) wanted) :
    Walks productions start cursor
      (fun productions => reader >>= fun value => next value productions) wanted :=
  (steps leads).bind rest

/-- First a look at the cursor. -/
theorem look {reader : Reader τ α} {value : α}
    (runs : StateT.run reader cursor = .ok (value, cursor))
    (rest : Walks productions start cursor (next value) wanted) :
    Walks productions start cursor
      (fun productions => reader >>= fun value => next value productions) wanted := by
  refine after ((leads_looked runs).mono fun _ _ same => ⟨same.2 ▸ .refl _, same⟩) ?_
  rintro _ _ - ⟨rfl, rfl⟩
  exact rest

theorem peek {next : Option τ → (κ → Reader τ β) → Reader τ γ}
    (rest : Walks productions start cursor (next cursor.tokens.head?) wanted) :
    Walks productions start cursor
      (fun productions => Reader.peek? >>= fun found => next found productions) wanted := by
  rw [Cursor.tokens, List.head?_map] at rest
  exact look rfl rest

/-- First a reader that does not move the cursor. -/
theorem stay {reader : Reader τ α} (stays : Leads cursor reader fun _ cursor' => cursor' = cursor)
    (rest : ∀ value, Walks productions start cursor (next value) wanted) :
    Walks productions start cursor
      (fun productions => reader >>= fun value => next value productions) wanted := by
  refine after (stays.mono fun _ _ same => ⟨same ▸ .refl _, same⟩) ?_
  rintro value _ - rfl
  exact rest value

/-- Whether there is a token or not. -/
theorem move {next : Unit → (κ → Reader τ β) → Reader τ γ}
    (rest : ∀ cursor', cursor.Reaches cursor' → Walks productions start cursor' (next ()) wanted) :
    Walks productions start cursor
      (fun productions => Reader.advance >>= fun moved => next moved productions) wanted :=
  after ((Forward.advance cursor).mono fun _ _ reaches => ⟨reaches, reaches⟩)
    fun _ cursor' reaches _ => rest cursor' reaches

/-- There is a token to move behind. -/
theorem advance {token : τ} {next : Unit → (κ → Reader τ β) → Reader τ γ}
    (found : cursor.tokens.head? = some token)
    (rest : ∀ cursor', cursor.Passes cursor' → Walks productions start cursor' (next ()) wanted) :
    Walks productions start cursor
      (fun productions => Reader.advance >>= fun moved => next moved productions) wanted := by
  have passes : Leads cursor Reader.advance fun _ cursor' => cursor.Passes cursor' := by
    rw [← bind_pure Reader.advance]
    exact .advance found fun placed others shape _ => .pure (Cursor.passes_behind shape)
  exact after (passes.mono fun _ _ passes => ⟨passes.1, passes⟩) fun _ cursor' _ => rest cursor'

/-- Whether the token is there or not. -/
theorem skip [DecidableEq τ] {token : τ} {next : Bool → (κ → Reader τ β) → Reader τ γ}
    (taken : ∀ cursor', cursor.Passes cursor' → Walks productions start cursor' (next true) wanted)
    (left : Walks productions start cursor (next false) wanted) :
    Walks productions start cursor
      (fun productions => Reader.skip token >>= fun found => next found productions) wanted := by
  refine after (leads_skipped.mono fun _ _ either =>
    ⟨either.elim (fun taken => taken.2.1) fun left => left.2 ▸ .refl _, either⟩) ?_
  rintro _ cursor' - (⟨rfl, passes⟩ | ⟨rfl, rfl⟩)
  · exact taken cursor' passes
  · exact left

theorem pure {value : α} (holds : good value cursor) :
    Walks productions start cursor (fun _ => Pure.pure value) good :=
  steps (.pure ⟨.refl _, holds⟩)

theorem fail {span : Span} {message : String} :
    Walks productions start cursor (fun _ => Reader.fail span message) good := steps .fail

end Walks

/-- From every cursor on the body walks, and a success has read at least one token. -/
def Proceeds (productions : κ → Reader τ β) (body : (κ → Reader τ β) → Reader τ α) : Prop :=
  ∀ cursor, Walks productions cursor cursor body fun _ cursor' => cursor.Passes cursor'

theorem Proceeds.consumes {productions : κ → Reader τ β} {body : (κ → Reader τ β) → Reader τ α}
    (proceeds : Proceeds productions body) : Consumes (body productions) := fun cursor =>
  (proceeds cursor).leads.mono fun _ _ both => both.2

theorem Consumes.after {reader : Reader τ α} (consumes : Consumes reader)
    {productions : κ → Reader τ β} {start cursor : Cursor τ}
    {next : α → (κ → Reader τ β) → Reader τ γ} {wanted : γ → Cursor τ → Prop}
    (rest : ∀ value cursor', cursor.Passes cursor' →
      Walks productions start cursor' (next value) wanted) :
    Walks productions start cursor
      (fun productions => reader >>= fun value => next value productions) wanted :=
  .after ((consumes cursor).mono fun _ _ passes => ⟨passes.1, passes⟩) fun value cursor' _ =>
    rest value cursor'

theorem Consumes.proceeds {reader : Reader τ α} (consumes : Consumes reader)
    {productions : κ → Reader τ β} : Proceeds productions fun _ => reader :=
  fun cursor => .steps ((consumes cursor).mono fun _ _ passes => ⟨passes.1, passes⟩)

/-! ### Rounds of a loop -/

section
variable {ι : Type}

/-- Given what goes on with the loop, the body leaves it at most once to that, behind a token; or
it ends by itself. -/
def Turns (again : ι → Reader τ α) (start cursor : Cursor τ)
    (body : (ι → Reader τ α) → Reader τ γ) : Prop :=
  ∃ calls, Follows body cursor calls (StateT.run (body again) cursor) ∧ calls.length ≤ 1 ∧
    ∀ call ∈ calls, call.AnsweredBy again ∧ start.Passes call.cursor

namespace Turns

variable {δ : Type} {again : ι → Reader τ α} {start cursor : Cursor τ}
  {body : (ι → Reader τ α) → Reader τ γ}

theorem steps {reader : Reader τ γ} : Turns again start cursor fun _ => reader :=
  ⟨[], .steps reader, Nat.zero_le _, List.forall_mem_nil _⟩

theorem enter (state : ι) (passed : start.Passes cursor) :
    Turns again start cursor fun again => again state :=
  ⟨[⟨state, cursor, StateT.run (again state) cursor⟩], .call state _, Nat.le_refl _,
    List.forall_mem_singleton.2 ⟨rfl, passed⟩⟩

theorem after {reader : Reader τ β} {next : β → (ι → Reader τ α) → Reader τ γ}
    {good : β → Cursor τ → Prop} (leads : Leads cursor reader good)
    (rest : ∀ value cursor', good value cursor' → Turns again start cursor' (next value)) :
    Turns again start cursor fun again => reader >>= fun value => next value again := by
  have whole : StateT.run (reader >>= fun value => next value again) cursor =
      StateT.run reader cursor >>= fun result => StateT.run (next result.1 again) result.2 :=
    StateT.run_bind ..
  have first : Follows (fun _ : ι → Reader τ α => reader) cursor [] _ := .steps reader
  cases runs : StateT.run reader cursor with
  | error cause =>
    rw [runs] at first whole
    exact ⟨[], whole ▸ first.bind_error, Nat.zero_le _, List.forall_mem_nil _⟩
  | ok result =>
    obtain ⟨value, cursor'⟩ := result
    rw [runs] at first whole
    obtain ⟨calls, follows, single, entered⟩ := rest value cursor' (leads value cursor' runs)
    exact ⟨calls, whole ▸ first.bind_ok follows, single, entered⟩

/-- First a look at the cursor. -/
theorem look {reader : Reader τ β} {value : β} {next : β → (ι → Reader τ α) → Reader τ γ}
    (runs : StateT.run reader cursor = .ok (value, cursor))
    (rest : Turns again start cursor (next value)) :
    Turns again start cursor fun again => reader >>= fun value => next value again := by
  refine after (leads_looked runs) ?_
  rintro _ _ ⟨rfl, rfl⟩
  exact rest

theorem skip [DecidableEq τ] {token : τ} {next : Bool → (ι → Reader τ α) → Reader τ γ}
    (taken : ∀ cursor', cursor.Passes cursor' → Turns again start cursor' (next true))
    (left : Turns again start cursor (next false)) :
    Turns again start cursor fun again => Reader.skip token >>= fun found => next found again := by
  refine after leads_skipped ?_
  rintro _ cursor' (⟨rfl, passes⟩ | ⟨rfl, rfl⟩)
  · exact taken cursor' passes
  · exact left

/-- Nothing of the loop is left for what comes behind. -/
theorem before {next : γ → Reader τ δ} (turns : Turns again start cursor body) :
    Turns again start cursor fun again => body again >>= fun value => next value := by
  obtain ⟨calls, follows, single, entered⟩ := turns
  have whole : StateT.run (body again >>= fun value => next value) cursor =
      StateT.run (body again) cursor >>= fun result => StateT.run (next result.1) result.2 :=
    StateT.run_bind ..
  refine ⟨calls, ?_, single, entered⟩
  cases runs : StateT.run (body again) cursor with
  | error cause =>
    rw [runs] at follows whole
    exact whole ▸ follows.bind_error
  | ok result =>
    rw [runs] at follows whole
    have ends : Follows (fun again => body again >>= fun value => next value) cursor
        (calls ++ []) _ := follows.bind_ok (.steps (next result.1))
    rw [List.append_nil] at ends
    exact whole ▸ ends

end Turns

/-- The rounds of a loop start at these cursors, and the last one ends it with the outcome. -/
inductive Iterates (round : ι → (ι → Reader τ α) → Reader τ α) :
    ι → Cursor τ → Except ReadError (α × Cursor τ) → List (Cursor τ) → Prop
  | last {state : ι} {cursor : Cursor τ} {outcome : Except ReadError (α × Cursor τ)}
      (ends : Follows (round state) cursor [] outcome) :
      Iterates round state cursor outcome [cursor]
  | again {state state' : ι} {cursor cursor' : Cursor τ}
      {outcome outcome' : Except ReadError (α × Cursor τ)} {cursors : List (Cursor τ)}
      (goesOn : Follows (round state) cursor [⟨state', cursor', outcome'⟩] outcome)
      (others : Iterates round state' cursor' outcome' cursors) :
      Iterates round state cursor outcome (cursor :: cursors)

/-- With as many rounds as there are tokens, and some to spare, the loop ends by itself, and every
round starts behind at least one more token than the one before it. -/
def Ends (round : ι → (ι → Reader τ α) → Reader τ α) (loop : Nat → ι → Reader τ α) (spare : Nat) :
    Prop :=
  ∀ rounds state cursor, cursor.rest.length + spare ≤ rounds → ∃ cursors,
    Iterates round state cursor (StateT.run (loop rounds state) cursor) (cursor :: cursors) ∧
      (cursor :: cursors).Pairwise Cursor.Passes

/-- The production is what is around the loop, with the loop in it: as many rounds as there are
tokens then, and some to spare. It comes to the loop once at most, and behind a token. -/
def Holds (around : (ι → Reader τ α) → Reader τ γ) (production : Reader τ γ)
    (loop : Nat → ι → Reader τ α) (spare : Nat) : Prop :=
  (production = around fun state => do loop ((← Reader.remaining) + spare) state) ∧
    ∀ again cursor, Turns again cursor cursor around

theorem Ends.intro {round : ι → (ι → Reader τ α) → Reader τ α} {loop : Nat → ι → Reader τ α}
    {spare : Nat} (succ : ∀ rounds state, loop (rounds + 1) state = round state (loop rounds))
    (turns : ∀ rounds state cursor, Turns (loop rounds) cursor cursor (round state))
    (zero : spare = 0 → ∀ state last stop, StateT.run (round state (loop 0)) ⟨[], last, stop⟩ =
      StateT.run (loop 0 state) ⟨[], last, stop⟩) :
    Ends round loop spare := by
  intro rounds
  induction rounds with
  | zero =>
    -- there is no token left, so no round can go on
    intro state ⟨rest, last, stop⟩ enough
    obtain rfl : rest = [] := List.length_eq_zero_iff.1 (Nat.eq_zero_of_add_eq_zero_right
      (Nat.le_zero.1 enough))
    obtain ⟨calls, follows, -, entered⟩ := turns 0 state ⟨[], last, stop⟩
    rw [zero (Nat.eq_zero_of_add_eq_zero_left (Nat.le_zero.1 enough)) state last stop] at follows
    cases calls with
    | nil => exact ⟨[], .last follows, List.pairwise_singleton _ _⟩
    | cons call others =>
      exact absurd (entered call List.mem_cons_self).2.2 (Nat.not_lt_zero _)
  | succ rounds ih =>
    intro state cursor enough
    obtain ⟨calls, follows, single, entered⟩ := turns rounds state cursor
    rw [succ]
    match calls, single with
    | [], _ => exact ⟨[], .last follows, List.pairwise_singleton _ _⟩
    | [⟨state', cursor', outcome'⟩], _ =>
      obtain ⟨answered, passes⟩ := entered _ List.mem_cons_self
      have less : cursor'.rest.length < cursor.rest.length := passes.2
      obtain ⟨cursors, iterates, behind⟩ := ih state' cursor' (by omega)
      rw [show StateT.run (loop rounds state') cursor' = outcome' from answered] at iterates
      refine ⟨cursor' :: cursors, .again follows iterates, List.pairwise_cons.2 ⟨?_, behind⟩⟩
      refine List.forall_mem_cons.2 ⟨passes, fun later listed => ?_⟩
      exact passes.trans_reaches ((List.pairwise_cons.1 behind).1 later listed).1

end

end EventQuery.Reading
