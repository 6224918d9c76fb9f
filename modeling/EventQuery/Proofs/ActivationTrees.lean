import EventQuery.Proofs.Activations

/-!
Trees of activations. A counter of the active productions goes up when one is entered and down
when it is left; one that would bring it above the limit is refused, and all that are active then
fail. Productions of which each reads at least one token before it calls another one have exactly
one such run from every cursor. In the run the cursor only moves forward, and not more productions
than the limit are active at once.
-/
namespace EventQuery.Reading

variable {τ κ α β : Type}

/-- Productions that are called one after the other, each with those that it calls itself. A
refused one is the last. -/
inductive Run (κ τ β : Type) where
  | done
  | refused (call : Call κ τ β)
  | entered (call : Call κ τ β) (inner others : Run κ τ β)

namespace Run

/-- The calls one after the other. -/
def calls : Run κ τ β → List (Call κ τ β)
  | done => []
  | refused call => [call]
  | entered call _ others => call :: others.calls

/-- Where the cursor is whenever a production is called or has succeeded, in the order of time. -/
def moments : Run κ τ β → List (Cursor τ)
  | done => []
  | refused call => call.moments
  | entered call inner others =>
    call.cursor :: (inner.moments ++ (ending call.outcome ++ others.moments))

/-- At least one token is between the place where a production is entered and the place of every
production that it calls. -/
def Deepens : Run κ τ β → Prop
  | done => True
  | refused _ => True
  | entered call inner others =>
    (∀ nested ∈ inner.calls, call.cursor.Passes nested.cursor) ∧ inner.Deepens ∧ others.Deepens

/-- How many productions are active at once at most. -/
def mostActive : Run κ τ β → Nat
  | done => 0
  | refused _ => 0
  | entered _ inner others => max (inner.mostActive + 1) others.mostActive

end Run

/-- The run happens, with the counter of the active productions before and after it. A production
is entered if the counter stays within the limit, and nothing is called behind one that fails. -/
inductive Happens (body : κ → (κ → Reader τ β) → Reader τ β) : Nat → Run κ τ β → Nat → Prop
  | done {depth : Nat} : Happens body depth .done depth
  | refused {depth : Nat} {call : Call κ τ β} (full : nestingLimit < depth + 1)
      (outcome : StateT.run Reader.tooDeep call.cursor = call.outcome) :
      Happens body depth (.refused call) (depth + 1)
  | entered {depth depth' depth'' : Nat} {call : Call κ τ β} {inner others : Run κ τ β}
      (free : depth + 1 ≤ nestingLimit)
      (follows : Follows (body call.production) call.cursor inner.calls call.outcome)
      (once : inner.calls.Nodup) (within : Happens body (depth + 1) inner (depth' + 1))
      (left : others ≠ .done → call.outcome.isOk = true)
      (behind : Happens body depth' others depth'') :
      Happens body depth (.entered call inner others) depth''

/-- The productions when that many levels are free. -/
structure Levels (body : κ → (κ → Reader τ β) → Reader τ β) (productions : Nat → κ → Reader τ β) :
    Prop where
  zero : ∀ production, productions 0 production = Reader.tooDeep
  succ : ∀ levels production,
    productions (levels + 1) production = body production (productions levels)

/-! ### The calls of a body -/

section
variable {productions : κ → Reader τ β} {before : List (Call κ τ β)} {call call' : Call κ τ β}

open Classical in
/-- The productions on the calls that are known; elsewhere they fail. -/
noncomputable def restricted (productions : κ → Reader τ β) (before : List (Call κ τ β))
    (cause : κ → Cursor τ → ReadError) (production : κ) : Reader τ β := fun cursor =>
  if ∃ known ∈ before, known.production = production ∧ known.cursor = cursor then
    StateT.run (productions production) cursor
  else .error (cause production cursor)

theorem answeredBy_restricted {cause : κ → Cursor τ → ReadError} (listed : call ∈ before)
    (answered : call.AnsweredBy productions) :
    call.AnsweredBy (restricted productions before cause) :=
  (if_pos ⟨call, listed, rfl, rfl⟩).trans answered

theorem Call.AnsweredBy.eq_of_key (answered : call.AnsweredBy productions)
    (answered' : call'.AnsweredBy productions) (production : call.production = call'.production)
    (place : call.cursor = call'.cursor) : call = call' := by
  have outcome : call.outcome = call'.outcome := by
    rw [← answered, ← answered', production, place]
  cases call
  cases call'
  cases production
  cases place
  cases outcome
  rfl

end

/-- The productions have answered the calls that the body makes, each of them once. -/
structure Recorded (productions : κ → Reader τ β) (body : (κ → Reader τ β) → Reader τ α)
    (cursor : Cursor τ) (calls : List (Call κ τ β)) (result : Except ReadError (α × Cursor τ)) :
    Prop where
  follows : Follows body cursor calls result
  answered : ∀ call ∈ calls, call.AnsweredBy productions
  once : calls.Nodup

namespace Recorded

variable {productions : κ → Reader τ β} {body : (κ → Reader τ β) → Reader τ α} {cursor : Cursor τ}
  {calls calls' before after after' : List (Call κ τ β)} {call call' : Call κ τ β}
  {result result' : Except ReadError (α × Cursor τ)}

/-- With the productions restricted to the calls before it, a call decides the result. -/
theorem run_restricted (recorded : Recorded productions body cursor calls result)
    (split : calls = before ++ call :: after) (cause : κ → Cursor τ → ReadError) :
    StateT.run (body (restricted productions before cause)) cursor =
      .error (cause call.production call.cursor) := by
  obtain ⟨follows, answered, once⟩ := recorded
  subst split
  have new : call ∉ before := fun listed =>
    (List.nodup_append.1 once).2.2 call listed call List.mem_cons_self rfl
  have kept : ∀ known ∈ before, known.AnsweredBy productions := fun known listed =>
    answered known (List.mem_append_left _ listed)
  refine follows.enters before call after rfl _
    (fun known listed => answeredBy_restricted listed (kept known listed)) _ (if_neg ?_)
  rintro ⟨known, listed, production, place⟩
  have isCall := (kept known listed).eq_of_key
    (answered call (List.mem_append_right _ List.mem_cons_self)) production place
  exact new (isCall ▸ listed)

/-- There is no further call behind all the calls of another record. -/
theorem not_further (recorded : Recorded productions body cursor before result)
    (recorded' : Recorded productions body cursor calls' result') :
    calls' ≠ before ++ call :: after := by
  intro split
  -- the restricted productions answer the first record, so its result would be every failure
  have fails : ∀ cause, result = .error cause := by
    intro cause
    rw [← recorded'.run_restricted split fun _ _ => cause]
    exact (recorded.follows.ends _ fun known listed =>
      answeredBy_restricted listed (recorded.answered known listed)).symm
  cases (fails ⟨⟨0, 0⟩, ""⟩).symm.trans (fails ⟨⟨0, 1⟩, ""⟩)

open Classical in
/-- Behind the same calls two records go on with the same call. -/
theorem next_unique (recorded : Recorded productions body cursor calls result)
    (recorded' : Recorded productions body cursor calls' result')
    (split : calls = before ++ call :: after) (split' : calls' = before ++ call' :: after') :
    call = call' := by
  -- the cause of a failure tells which of the two calls was made
  let cause : κ → Cursor τ → ReadError := fun production place =>
    if production = call.production ∧ place = call.cursor then ⟨⟨0, 0⟩, ""⟩ else ⟨⟨0, 1⟩, ""⟩
  have same := (recorded.run_restricted split cause).symm.trans
    (recorded'.run_restricted split' cause)
  rw [show cause call.production call.cursor = ⟨⟨0, 0⟩, ""⟩ from if_pos ⟨rfl, rfl⟩] at same
  by_cases key : call'.production = call.production ∧ call'.cursor = call.cursor
  · have answered := recorded.answered call (split ▸ List.mem_append_right _ List.mem_cons_self)
    have answered' := recorded'.answered call' (split' ▸ List.mem_append_right _ List.mem_cons_self)
    exact answered.eq_of_key answered' key.1.symm key.2.symm
  · rw [show cause call'.production call'.cursor = ⟨⟨0, 1⟩, ""⟩ from if_neg key] at same
    cases same

theorem rest_unique (recorded : Recorded productions body cursor calls result)
    (recorded' : Recorded productions body cursor calls' result') {rest rest' : List (Call κ τ β)}
    (split : calls = before ++ rest) (split' : calls' = before ++ rest') : rest = rest' := by
  induction rest generalizing before rest' with
  | nil =>
    cases rest' with
    | nil => rfl
    | cons call' after' =>
      rw [List.append_nil] at split
      subst split
      exact absurd split' (recorded.not_further recorded')
  | cons call after ih =>
    cases rest' with
    | nil =>
      rw [List.append_nil] at split'
      subst split'
      exact absurd split (recorded'.not_further recorded)
    | cons call' after' =>
      obtain rfl := recorded.next_unique recorded' split split'
      rw [List.append_cons] at split split'
      rw [ih split split']

/-- There is one record of the calls. -/
theorem unique (recorded : Recorded productions body cursor calls result)
    (recorded' : Recorded productions body cursor calls' result') : calls = calls' :=
  recorded.rest_unique recorded' (List.nil_append calls).symm (List.nil_append calls').symm

end Recorded

/-! ### The calls of a walk -/

/-- Where every call reads a token, none is made twice. -/
theorem nodup_of_inOrder {productions : κ → Reader τ β}
    (consumes : ∀ production, Consumes (productions production)) {calls : List (Call κ τ β)}
    (answered : ∀ call ∈ calls, call.AnsweredBy productions)
    (succeed : ∀ call ∈ calls.dropLast, call.outcome.isOk = true)
    (inOrder : Cursor.InOrder (calls.flatMap Call.moments)) : calls.Nodup := by
  induction calls with
  | nil => exact List.nodup_nil
  | cons call others ih =>
    rw [List.flatMap_cons] at inOrder
    obtain ⟨-, behind, before⟩ := List.pairwise_append.1 inOrder
    rw [List.forall_mem_cons] at answered
    refine List.nodup_cons.2 ⟨fun again => ?_, ih answered.2 (fun later listed => ?_) behind⟩
    · rw [List.dropLast_cons_of_ne_nil (List.ne_nil_of_mem again)] at succeed
      cases ends : call.outcome with
      | error cause =>
        have succeeds := succeed call List.mem_cons_self
        rw [ends] at succeeds
        cases succeeds
      | ok result =>
        have passes := consumes _ _ result.1 result.2 (answered.1.trans ends)
        have reaches : result.2.Reaches call.cursor := by
          refine before result.2 ?_ call.cursor (List.mem_flatMap.2 ⟨call, again, List.mem_cons_self⟩)
          rw [Call.moments, ends]
          exact List.mem_cons_of_mem _ List.mem_cons_self
        exact Nat.lt_irrefl _ (passes.trans_reaches reaches).2
    · rw [List.dropLast_cons_of_ne_nil (List.ne_nil_of_mem (List.dropLast_subset _ listed))] at succeed
      exact succeed later (List.mem_cons_of_mem _ listed)

theorem Walk.recorded {productions : κ → Reader τ β} {start cursor : Cursor τ}
    {body : (κ → Reader τ β) → Reader τ α} {good : α → Cursor τ → Prop} {calls : List (Call κ τ β)}
    (walk : Walk productions start cursor body good calls)
    (consumes : ∀ production, Consumes (productions production)) :
    Recorded productions body cursor calls (StateT.run (body productions) cursor) := by
  have answered : ∀ call ∈ calls, call.AnsweredBy productions := fun call listed =>
    (walk.entered call listed).1
  refine ⟨walk.follows, answered, nodup_of_inOrder consumes answered walk.succeed ?_⟩
  exact (List.pairwise_append.1 (List.pairwise_cons.1 walk.inOrder).2).1

/-- Each production reads a token before it calls another one, and one in all. -/
def Deepening (body : κ → (κ → Reader τ β) → Reader τ β) : Prop :=
  ∀ productions : κ → Reader τ β, (∀ production, Consumes (productions production)) →
    ∀ production, Proceeds productions (body production)

section
variable {body : κ → (κ → Reader τ β) → Reader τ β} {productions : Nat → κ → Reader τ β}
  {depth depth' spare : Nat} {run run' : Run κ τ β}

theorem Levels.consumes (levels : Levels body productions) (deepening : Deepening body)
    (spare : Nat) (production : κ) : Consumes (productions spare production) := by
  induction spare generalizing production with
  | zero =>
    intro cursor
    rw [levels.zero]
    exact .tooDeep
  | succ spare ih =>
    intro cursor
    rw [levels.succ]
    exact (deepening _ ih production).consumes cursor

/-- A body that succeeds has called nothing that failed. -/
theorem Follows.isOk_of_isOk {body : (κ → Reader τ β) → Reader τ α} {cursor : Cursor τ}
    {calls : List (Call κ τ β)} {result : Except ReadError (α × Cursor τ)}
    {productions : κ → Reader τ β} (follows : Follows body cursor calls result)
    (answered : ∀ call ∈ calls, call.AnsweredBy productions) (succeeds : result.isOk = true) :
    ∀ call ∈ calls, call.outcome.isOk = true := by
  cases result with
  | error cause => cases succeeds
  | ok result => exact follows.isOk_of_ok answered

/-! ### Every run -/

namespace Happens

theorem le (happens : Happens body depth run depth') : depth ≤ depth' := by
  induction happens with
  | done => exact Nat.le_refl _
  | refused => exact Nat.le_succ _
  | entered _ _ _ _ _ _ inner others => exact Nat.le_trans (Nat.le_of_succ_le_succ inner) others

/-- The calls of a run have the outcomes of the productions. On success the counter is what it
was before. -/
theorem answered (levels : Levels body productions) (happens : Happens body depth run depth')
    (total : depth + spare = nestingLimit) :
    (∀ call ∈ run.calls, call.AnsweredBy (productions spare)) ∧
      ((∀ call ∈ run.calls, call.outcome.isOk = true) → depth' = depth) := by
  induction happens generalizing spare with
  | done => exact ⟨List.forall_mem_nil _, fun _ => rfl⟩
  | @refused depth call full outcome =>
    obtain rfl : spare = 0 := by omega
    refine ⟨List.forall_mem_singleton.2 ?_, fun succeed => ?_⟩
    · rw [Call.AnsweredBy, levels.zero]
      exact outcome
    · have succeeds := succeed call List.mem_cons_self
      rw [← outcome] at succeeds
      cases succeeds
  | @entered depth depth' depth'' call inner others free follows _ _ left behind ihInner ihOthers =>
    obtain ⟨spare, rfl⟩ : ∃ levels, spare = levels + 1 := ⟨spare - 1, by omega⟩
    have inside : depth + 1 + spare = nestingLimit := by omega
    obtain ⟨nested, restored⟩ := ihInner inside
    have here : call.AnsweredBy (productions (spare + 1)) := by
      rw [Call.AnsweredBy, levels.succ]
      exact follows.ends _ nested
    have back : call.outcome.isOk = true → depth' = depth := fun succeeds =>
      Nat.succ.inj (restored (follows.isOk_of_isOk nested succeeds))
    by_cases last : others = .done
    · subst last
      cases behind
      exact ⟨List.forall_mem_singleton.2 here, fun succeed => back (succeed call List.mem_cons_self)⟩
    · obtain rfl := back (left last)
      obtain ⟨later, restored'⟩ := ihOthers total
      exact ⟨List.forall_mem_cons.2 ⟨here, later⟩, fun succeed =>
        restored' (List.forall_mem_cons.1 succeed).2⟩

/-- The counter behind a production that has succeeded. -/
theorem restored (levels : Levels body productions) {call : Call κ τ β} {inner : Run κ τ β}
    (within : Happens body (depth + 1) inner (depth' + 1))
    (follows : Follows (body call.production) call.cursor inner.calls call.outcome)
    (free : depth + 1 ≤ nestingLimit) (succeeds : call.outcome.isOk = true) : depth' = depth := by
  obtain ⟨nested, restored⟩ := within.answered levels (Nat.add_sub_of_le free)
  exact Nat.succ.inj (restored (follows.isOk_of_isOk nested succeeds))

theorem unique (levels : Levels body productions) {after after' : Nat}
    (happens : Happens body depth run after) (happens' : Happens body depth run' after')
    (same : run.calls = run'.calls) : run = run' ∧ after = after' := by
  induction happens generalizing run' after' with
  | done =>
    cases happens' with
    | done => exact ⟨rfl, rfl⟩
    | refused => cases same
    | entered => cases same
  | refused full =>
    cases happens' with
    | done => cases same
    | refused =>
      cases same
      exact ⟨rfl, rfl⟩
    | entered free => exact absurd free (Nat.not_le.2 full)
  | entered free follows once within left behind ihInner ihOthers =>
    cases happens' with
    | done => cases same
    | refused full => exact absurd free (Nat.not_le.2 full)
    | entered _ follows' once' within' left' behind' =>
      obtain ⟨rfl, sameOthers⟩ := List.cons.inj same
      have nested := (within.answered levels (Nat.add_sub_of_le free)).1
      have nested' := (within'.answered levels (Nat.add_sub_of_le free)).1
      have sameInner := Recorded.unique ⟨follows, nested, once⟩ ⟨follows', nested', once'⟩
      obtain ⟨rfl, counter⟩ := ihInner within' sameInner
      obtain rfl := Nat.succ.inj counter
      obtain ⟨rfl, rfl⟩ := ihOthers behind' sameOthers
      exact ⟨rfl, rfl⟩

/-- No more productions are active at once than there are free levels. -/
theorem mostActive_le (levels : Levels body productions) (happens : Happens body depth run depth')
    (total : depth + spare = nestingLimit) : run.mostActive ≤ spare := by
  induction happens generalizing spare with
  | done => exact Nat.zero_le _
  | refused => exact Nat.zero_le _
  | @entered depth _ _ _ inner others free follows _ within left _ ihInner ihOthers =>
    obtain ⟨spare, rfl⟩ : ∃ levels, spare = levels + 1 := ⟨spare - 1, by omega⟩
    have inside : depth + 1 + spare = nestingLimit := by omega
    refine Nat.max_le.2 ⟨Nat.succ_le_succ (ihInner inside), ?_⟩
    by_cases last : others = .done
    · subst last
      exact Nat.zero_le _
    · obtain rfl := within.restored levels follows free (left last)
      exact ihOthers total

/-- What a production of a run calls is what a walk calls. -/
theorem walks (levels : Levels body productions) (deepening : Deepening body) {call : Call κ τ β}
    {inner : Run κ τ β} (within : Happens body (depth + 1) inner (depth' + 1))
    (follows : Follows (body call.production) call.cursor inner.calls call.outcome)
    (once : inner.calls.Nodup) (free : depth + 1 ≤ nestingLimit) :
    (∀ nested ∈ inner.calls, call.cursor.Passes nested.cursor) ∧
      Cursor.InOrder (call.cursor :: (inner.calls.flatMap Call.moments ++ ending call.outcome)) := by
  obtain ⟨answered, -⟩ := within.answered levels (Nat.add_sub_of_le free)
  have consumes := levels.consumes deepening (nestingLimit - (depth + 1))
  obtain ⟨calls, walk⟩ := deepening _ consumes call.production call.cursor
  have inOrder := walk.inOrder
  rw [follows.ends _ answered] at inOrder
  rw [Recorded.unique ⟨follows, answered, once⟩ (walk.recorded consumes)]
  exact ⟨fun nested listed => (walk.entered nested listed).2, inOrder⟩

theorem deepens (levels : Levels body productions) (deepening : Deepening body)
    (happens : Happens body depth run depth') : run.Deepens := by
  induction happens with
  | done => trivial
  | refused => trivial
  | entered free follows once within _ _ inner others =>
    exact ⟨(within.walks levels deepening follows once free).1, inner, others⟩

/-- The cursor moves forward during a run if it does so from call to call. -/
theorem inOrder (levels : Levels body productions) (deepening : Deepening body)
    (happens : Happens body depth run depth') {start : Cursor τ} {back : List (Cursor τ)}
    (succeed : back ≠ [] → ∀ call ∈ run.calls, call.outcome.isOk = true)
    (outside : Cursor.InOrder (start :: (run.calls.flatMap Call.moments ++ back))) :
    Cursor.InOrder (start :: (run.moments ++ back)) := by
  induction happens generalizing start back with
  | done => exact outside
  | @refused depth call =>
    rw [Run.calls, List.flatMap_singleton] at outside
    exact outside
  | @entered _ _ _ call inner others free follows once within left _ ihInner ihOthers =>
    obtain ⟨answered, -⟩ := within.answered levels (Nat.add_sub_of_le free)
    obtain ⟨-, inside⟩ := within.walks levels deepening follows once free
    obtain ⟨reaches, outside⟩ := List.pairwise_cons.1 outside
    refine Cursor.InOrder.cons (reaches call.cursor List.mem_cons_self) ?_
    rw [Run.calls, List.flatMap_cons, Call.moments] at outside
    cases ends : call.outcome with
    | error cause =>
      -- a production that fails is the last moment of the run
      have fails : call.outcome.isOk ≠ true := by
        rw [ends]
        exact Bool.false_ne_true
      have last : others = .done := by
        by_contra more
        exact fails (left more)
      have none : back = [] := by
        by_contra more
        exact fails (succeed more call List.mem_cons_self)
      rw [ends] at inside
      have moved := ihInner (fun more => absurd rfl more) inside
      rw [last, none, List.append_eq, List.append_nil]
      exact moved
    | ok result =>
      obtain ⟨value, cursor'⟩ := result
      rw [ends] at inside outside
      have succeeded := follows.isOk_of_isOk answered (by rw [ends]; rfl)
      have moved := ihInner (fun _ => succeeded) inside
      have moved' := ihOthers (fun more => (List.forall_mem_cons.1 (succeed more)).2)
        (List.pairwise_cons.1 outside).2
      rw [List.append_eq, List.append_assoc, ← List.cons_append]
      exact .append moved moved'

end Happens

/-! ### The run -/

/-- Calls that the productions have answered have a run. -/
theorem exists_happens (levels : Levels body productions) (deepening : Deepening body) :
    ∀ spare depth, depth + spare = nestingLimit → ∀ calls : List (Call κ τ β),
      (∀ call ∈ calls, call.AnsweredBy (productions spare)) →
      (∀ call ∈ calls.dropLast, call.outcome.isOk = true) →
      ∃ run depth', run.calls = calls ∧ Happens body depth run depth' := by
  intro spare
  induction spare with
  | zero =>
    intro depth total calls answered succeed
    cases calls with
    | nil => exact ⟨.done, depth, rfl, .done⟩
    | cons call others =>
      have refused := answered call List.mem_cons_self
      rw [Call.AnsweredBy, levels.zero] at refused
      cases others with
      | nil => exact ⟨.refused call, depth + 1, rfl, .refused (by omega) refused⟩
      | cons next others =>
        have succeeds := succeed call List.mem_cons_self
        rw [← refused] at succeeds
        cases succeeds
  | succ spare ih =>
    intro depth total calls
    have consumes := levels.consumes deepening spare
    have free : depth + 1 ≤ nestingLimit := by omega
    induction calls with
    | nil => exact fun _ _ => ⟨.done, depth, rfl, .done⟩
    | cons call others ihCalls =>
      intro answered succeed
      obtain ⟨calls, walk⟩ := deepening _ consumes call.production call.cursor
      obtain ⟨follows, answered', once⟩ := walk.recorded consumes
      have here := answered call List.mem_cons_self
      rw [Call.AnsweredBy, levels.succ] at here
      rw [here] at follows
      -- what the call calls has a run one level deeper
      obtain ⟨inner, counter, rfl, within⟩ := ih (depth + 1) (by omega) calls answered' walk.succeed
      obtain ⟨depth', rfl⟩ : ∃ depth', counter = depth' + 1 :=
        ⟨counter - 1, (Nat.sub_add_cancel (Nat.le_trans (Nat.le_add_left ..) within.le)).symm⟩
      by_cases last : others = []
      · subst last
        exact ⟨.entered call inner .done, depth', rfl,
          .entered free follows once within (fun more => absurd rfl more) .done⟩
      · rw [List.dropLast_cons_of_ne_nil last, List.forall_mem_cons] at succeed
        obtain rfl := within.restored levels follows free succeed.1
        obtain ⟨run, depth'', rfl, behind⟩ := ihCalls (List.forall_mem_cons.1 answered).2 succeed.2
        exact ⟨.entered call inner run, depth'', rfl,
          .entered free follows once within (fun _ => succeed.1) behind⟩

end

/-- A call that is made while nothing is active has this run and no other, and the counter is
`counter` behind it. During the run the cursor only moves forward, every production is called behind
a token that the one calling it has read, and no more than `limit` productions are active at once. -/
structure BoundedRun (limit : Nat) (body : κ → (κ → Reader τ β) → Reader τ β) (call : Call κ τ β)
    (run : Run κ τ β) (counter : Nat) : Prop where
  calls : run.calls = [call]
  happens : Happens body 0 run counter
  only : ∀ run' counter' outcome, run'.calls = [⟨call.production, call.cursor, outcome⟩] →
    Happens body 0 run' counter' → run' = run
  inOrder : Cursor.InOrder run.moments
  deepens : run.Deepens
  limited : run.mostActive ≤ limit
  restored : call.outcome.isOk = true → counter = 0

/-- From every cursor the reader does what a bounded run of the production does. -/
def BoundedBy (limit : Nat) (body : κ → (κ → Reader τ β) → Reader τ β) (production : κ)
    (reader : Reader τ β) : Prop :=
  ∀ cursor, ∃ run counter,
    BoundedRun limit body ⟨production, cursor, StateT.run reader cursor⟩ run counter

theorem Levels.boundedBy {body : κ → (κ → Reader τ β) → Reader τ β}
    {productions : Nat → κ → Reader τ β} (levels : Levels body productions)
    (deepening : Deepening body) (production : κ) :
    BoundedBy nestingLimit body production (productions nestingLimit production) := by
  intro cursor
  have total : 0 + nestingLimit = nestingLimit := Nat.zero_add _
  obtain ⟨run, counter, calls, happens⟩ := exists_happens levels deepening nestingLimit 0 total
    [⟨production, cursor, StateT.run (productions nestingLimit production) cursor⟩]
    (List.forall_mem_singleton.2 rfl) (List.forall_mem_nil _)
  have answered := (happens.answered levels total).2
  rw [calls] at answered
  refine ⟨run, counter, calls, happens, ?only, ?inOrder, happens.deepens levels deepening,
    happens.mostActive_le levels total, fun succeeds => ?restored⟩
  case only =>
    intro run' counter' outcome calls' happens'
    have answered' := (happens'.answered levels total).1 ⟨production, cursor, outcome⟩
      (by rw [calls']; exact List.mem_cons_self)
    refine (happens'.unique levels happens ?_).1
    rw [calls', calls, ← show _ = outcome from answered']
  case inOrder =>
    have consumes := levels.consumes deepening nestingLimit production cursor
    have outside : Cursor.InOrder (cursor :: (run.calls.flatMap Call.moments ++ [])) := by
      rw [calls, List.flatMap_singleton, List.append_nil, Call.moments]
      refine .cons (.refl cursor) ?_
      cases runs : StateT.run (productions nestingLimit production) cursor with
      | error cause => exact List.pairwise_singleton _ _
      | ok result => exact List.pairwise_pair.2 (consumes result.1 result.2 runs).1
    have moved := happens.inOrder levels deepening (fun none => absurd rfl none) outside
    rw [List.append_nil] at moved
    exact (List.pairwise_cons.1 moved).2
  case restored => exact answered (List.forall_mem_singleton.2 succeeds)

end EventQuery.Reading
