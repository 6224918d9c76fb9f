import EventQuery.Proofs.Outcome
import EventQuery.Reading.Cursor

/-!
What productions do to the tokens in front of them. `Parses` says when a production succeeds
on some tokens, whatever the spans are, and what it leaves of them; its rules take a production
apart step by step, and collect the conditions of the steps. `Leads` says what every success
from one cursor has, places included. `Gives` says what every success has on any tokens that
meet a condition.
-/
namespace EventQuery.Reading

variable {τ α β : Type}

/-- The tokens that are still to be read, without their places. -/
def Cursor.tokens (cursor : Cursor τ) : List τ := cursor.rest.map Placed.token

/-- On the tokens `before` the production succeeds if `fits` holds, with a good value, and
leaves `after`; otherwise it fails. -/
def Parses (fits : Prop) (production : Reader τ α) (before after : List τ) (good : α → Prop) :
    Prop :=
  ∀ cursor : Cursor τ, cursor.tokens = before →
    (fits → ∃ value cursor', StateT.run production cursor = .ok (value, cursor') ∧
      cursor'.tokens = after ∧ good value) ∧
    (¬ fits → ∃ cause, StateT.run production cursor = .error cause)

/-- On the tokens `before` the production succeeds with a good value, and leaves `after`. -/
abbrev Reads (production : Reader τ α) (before after : List τ) (good : α → Prop) : Prop :=
  Parses True production before after good

variable {before middle after : List τ} {fits fits' : Prop} {P P' : α → Prop}
  {next : α → Reader τ β} {Q : β → Prop} {production : Reader τ α}

theorem Reads.intro
    (succeeds : ∀ cursor : Cursor τ, cursor.tokens = before → ∃ value cursor',
      StateT.run production cursor = .ok (value, cursor') ∧ cursor'.tokens = after ∧ P value) :
    Reads production before after P := fun cursor same =>
  ⟨fun _ => succeeds cursor same, fun fails => absurd trivial fails⟩

namespace Parses

theorem pure {value : α} (holds : P value) :
    Reads (Pure.pure value : Reader τ α) after after P :=
  .intro fun cursor same => ⟨value, cursor, rfl, same, holds⟩

/-- Both steps have to succeed. -/
theorem both (first : Parses fits production before middle P)
    (rest : ∀ value, P value → Parses fits' (next value) middle after Q) :
    Parses (fits ∧ fits') (production >>= next) before after Q := by
  intro cursor same
  obtain ⟨succeeds, fails⟩ := first cursor same
  rw [StateT.run_bind]
  refine ⟨fun ⟨holds, holds'⟩ => ?_, fun fault => ?_⟩
  · obtain ⟨value, cursor', runs, same', good⟩ := succeeds holds
    rw [runs]
    exact (rest value good cursor' same').1 holds'
  · by_cases holds : fits
    · obtain ⟨value, cursor', runs, same', good⟩ := succeeds holds
      rw [runs]
      exact (rest value good cursor' same').2 fun holds' => fault ⟨holds, holds'⟩
    · obtain ⟨cause, runs⟩ := fails holds
      exact ⟨cause, by rw [runs]; rfl⟩

theorem congr (same : fits ↔ fits') (parses : Parses fits production before after P) :
    Parses fits' production before after P := propext same ▸ parses

/-- The first step succeeds anyway. -/
theorem bind (first : Reads production before middle P)
    (rest : ∀ value, P value → Parses fits (next value) middle after Q) :
    Parses fits (production >>= next) before after Q :=
  (first.both rest).congr (by rw [true_and])

/-- Nothing can fail behind the first step. -/
theorem finish (first : Parses fits production before middle P)
    (rest : ∀ value, P value → Reads (next value) middle after Q) :
    Parses fits (production >>= next) before after Q :=
  (first.both rest).congr (by rw [and_true])

theorem mono (parses : Parses fits production before after P)
    (better : ∀ value, P value → P' value) : Parses fits production before after P' := by
  intro cursor same
  refine (parses cursor same).imp_left fun succeeds holds => ?_
  obtain ⟨value, cursor', runs, same', good⟩ := succeeds holds
  exact ⟨value, cursor', runs, same', better value good⟩

theorem map {change : α → β} (parses : Parses fits production before after P)
    (better : ∀ value, P value → Q (change value)) :
    Parses fits (change <$> production) before after Q := by
  rw [map_eq_pure_bind]
  exact parses.finish fun value good => .pure (better value good)

theorem fail {span : Span} {message : String} :
    Parses False (Reader.fail span message : Reader τ α) before after P :=
  fun _ _ => ⟨False.elim, fun _ => ⟨_, rfl⟩⟩

theorem tooDeep : Parses False (Reader.tooDeep : Reader τ α) before after P :=
  fun _ _ => ⟨False.elim, fun _ => ⟨_, rfl⟩⟩

/-- A production on all of a list of tokens. -/
theorem run (parses : Parses fits production before after P) {tokens : List (Placed τ)} {stop : Nat}
    (same : tokens.map Placed.token = before) :
    (fits → ∃ value, production.run tokens stop = .ok value ∧ P value) ∧
      (¬ fits → ∃ cause, production.run tokens stop = .error cause) := by
  obtain ⟨succeeds, fails⟩ := parses ⟨tokens, 0, stop⟩ same
  constructor
  · intro holds
    obtain ⟨value, cursor, runs, -, good⟩ := succeeds holds
    exact ⟨value, Outcome.map_eq_ok.2 ⟨_, runs, rfl⟩, good⟩
  · intro fault
    obtain ⟨cause, runs⟩ := fails fault
    exact ⟨cause, congrArg (Functor.map Prod.fst) runs⟩

/-! ### Looking ahead -/

theorem peek {next : Option τ → Reader τ β}
    (rest : Parses fits (next before.head?) before after Q) :
    Parses fits (Reader.peek? >>= next) before after Q := by
  refine bind (P := (· = before.head?)) (.intro fun cursor same => ?_)
    fun _ isHead => isHead ▸ rest
  refine ⟨_, cursor, rfl, same, ?_⟩
  rw [← same, Cursor.tokens, List.head?_map]

theorem second {next : Option τ → Reader τ β}
    (rest : Parses fits (next before[1]?) before after Q) :
    Parses fits (Reader.second? >>= next) before after Q := by
  refine bind (P := (· = before[1]?)) (.intro fun cursor same => ?_)
    fun _ isNext => isNext ▸ rest
  refine ⟨_, cursor, rfl, same, ?_⟩
  rw [← same, Cursor.tokens, List.getElem?_map]

theorem remaining {next : Nat → Reader τ β}
    (rest : Parses fits (next before.length) before after Q) :
    Parses fits (Reader.remaining >>= next) before after Q := by
  refine bind (P := (· = before.length)) (.intro fun cursor same => ?_)
    fun _ isLength => isLength ▸ rest
  refine ⟨_, cursor, rfl, same, ?_⟩
  rw [← same, Cursor.tokens, List.length_map]

theorem place {next : Span → Reader τ β} (rest : ∀ span, Parses fits (next span) before after Q) :
    Parses fits (Reader.place >>= next) before after Q :=
  bind (P := fun _ => True) (.intro fun cursor same => ⟨_, cursor, rfl, same, trivial⟩)
    fun span _ => rest span

theorem start {next : Nat → Reader τ β} (rest : ∀ first, Parses fits (next first) before after Q) :
    Parses fits (Reader.start >>= next) before after Q :=
  bind (P := fun _ => True) (.intro fun cursor same => ⟨_, cursor, rfl, same, trivial⟩)
    fun first _ => rest first

theorem spanFrom {first : Nat} {next : Span → Reader τ β}
    (rest : ∀ span, Parses fits (next span) before after Q) :
    Parses fits (Reader.spanFrom first >>= next) before after Q :=
  bind (P := fun _ => True) (.intro fun cursor same => ⟨_, cursor, rfl, same, trivial⟩)
    fun span _ => rest span

/-! ### Moving -/

theorem advance {token : τ} {next : Unit → Reader τ β}
    (rest : Parses fits (next ()) middle after Q) :
    Parses fits (Reader.advance >>= next) (token :: middle) after Q := by
  refine bind (P := fun _ => True) (.intro fun cursor same => ?_) fun _ _ => rest
  obtain ⟨placed, last, stop⟩ := cursor
  cases placed with
  | nil => cases same
  | cons placed others => exact ⟨(), _, rfl, (List.cons.inj same).2, trivial⟩

variable [DecidableEq τ]

theorem taken {token : τ} : Reads (Reader.skip token) (token :: middle) middle (· = true) := by
  refine peek ?_
  rw [if_pos (show (token :: middle).head? = some token from rfl)]
  exact advance (.pure rfl)

theorem left {token : τ} (other : before.head? ≠ some token) :
    Reads (Reader.skip token) before before (· = false) := by
  refine peek ?_
  rw [if_neg other]
  exact .pure rfl

theorem skip {token : τ} {next : Bool → Reader τ β}
    (rest : Parses fits (next true) middle after Q) :
    Parses fits (Reader.skip token >>= next) (token :: middle) after Q :=
  bind taken fun _ same => same ▸ rest

theorem skip_other {token : τ} {next : Bool → Reader τ β} (other : before.head? ≠ some token)
    (rest : Parses fits (next false) before after Q) :
    Parses fits (Reader.skip token >>= next) before after Q :=
  bind (left other) fun _ same => same ▸ rest

/-- A token that may be missing. -/
theorem skip_optional {token : τ} {present : Prop} [Decidable present] {next : Bool → Reader τ β}
    (other : before.head? ≠ some token)
    (rest : Parses fits (next (decide present)) before after Q) :
    Parses fits (Reader.skip token >>= next) ((if present then [token] else []) ++ before) after Q := by
  by_cases holds : present
  · rw [if_pos holds]
    exact skip (by simpa [holds] using rest)
  · rw [if_neg holds]
    exact skip_other other (by simpa [holds] using rest)

end Parses

/-! ### From a cursor -/

/-- Where the next token stands, or the end of the text. -/
def Cursor.place (cursor : Cursor τ) : Span :=
  match cursor.rest with
  | next :: _ => next.span
  | [] => ⟨cursor.stop, cursor.stop⟩

/-- The cursor behind a token that was read. -/
def Cursor.behind (cursor : Cursor τ) (placed : Placed τ) (rest : List (Placed τ)) : Cursor τ :=
  { cursor with rest, last := placed.span.stop }

theorem Cursor.tokens_behind {cursor : Cursor τ} {placed : Placed τ} {rest : List (Placed τ)}
    (shape : cursor.rest = placed :: rest) :
    cursor.tokens = placed.token :: (cursor.behind placed rest).tokens := by
  rw [Cursor.tokens, shape, List.map_cons]
  rfl

/-- Every success of the production from the cursor is good: its value, and where the cursor is
then. -/
def Leads (cursor : Cursor τ) (production : Reader τ α) (good : α → Cursor τ → Prop) : Prop :=
  ∀ value cursor', StateT.run production cursor = .ok (value, cursor') → good value cursor'

namespace Leads

variable {cursor : Cursor τ} {production : Reader τ α} {next : α → Reader τ β}
  {good good' : α → Cursor τ → Prop} {wanted : β → Cursor τ → Prop}

theorem pure {value : α} (holds : good value cursor) : Leads cursor (Pure.pure value) good := by
  rintro _ _ ⟨⟩
  exact holds

theorem given {value : α} (rest : Leads cursor (next value) wanted) :
    Leads cursor (Pure.pure value >>= next) wanted := rest

theorem bind (first : Leads cursor production good)
    (rest : ∀ value cursor', good value cursor' → Leads cursor' (next value) wanted) :
    Leads cursor (production >>= next) wanted := by
  intro result cursor'' runs
  obtain ⟨⟨value, cursor'⟩, runs, runs'⟩ := Outcome.bind_eq_ok.1 runs
  exact rest value cursor' (first value cursor' runs) result cursor'' runs'

theorem mono (leads : Leads cursor production good)
    (better : ∀ value cursor', good value cursor' → good' value cursor') :
    Leads cursor production good' :=
  fun value cursor' runs => better value cursor' (leads value cursor' runs)

theorem map {change : α → β} (leads : Leads cursor production good)
    (better : ∀ value cursor', good value cursor' → wanted (change value) cursor') :
    Leads cursor (change <$> production) wanted := by
  rw [map_eq_pure_bind]
  exact leads.bind fun value cursor' holds => .pure (better value cursor' holds)

theorem fail {span : Span} {message : String} : Leads cursor (Reader.fail span message) good := by
  intro value cursor' runs
  cases runs

theorem lift {result : Except ReadError α}
    (holds : ∀ value, result = .ok value → good value cursor) :
    Leads cursor (liftM result : Reader τ α) good := by
  intro value cursor' runs
  obtain ⟨value, succeeds, same⟩ := Outcome.bind_eq_ok.1 runs
  cases same
  exact holds value succeeds

theorem peek {next : Option τ → Reader τ β}
    (rest : Leads cursor (next cursor.tokens.head?) wanted) :
    Leads cursor (Reader.peek? >>= next) wanted := by
  rw [Cursor.tokens, List.head?_map] at rest
  exact rest

theorem second {next : Option τ → Reader τ β}
    (rest : Leads cursor (next cursor.tokens[1]?) wanted) :
    Leads cursor (Reader.second? >>= next) wanted := by
  rw [Cursor.tokens, List.getElem?_map] at rest
  exact rest

theorem remaining {next : Nat → Reader τ β} (rest : Leads cursor (next cursor.rest.length) wanted) :
    Leads cursor (Reader.remaining >>= next) wanted := rest

theorem place {next : Span → Reader τ β} (rest : Leads cursor (next cursor.place) wanted) :
    Leads cursor (Reader.place >>= next) wanted := rest

theorem start {next : Nat → Reader τ β} (rest : Leads cursor (next cursor.place.start) wanted) :
    Leads cursor (Reader.start >>= next) wanted := rest

theorem spanFrom {first : Nat} {next : Span → Reader τ β}
    (rest : Leads cursor (next ⟨first, max first cursor.last⟩) wanted) :
    Leads cursor (Reader.spanFrom first >>= next) wanted := rest

/-- There is a token to move behind. -/
theorem advance {token : τ} {next : Unit → Reader τ β} (found : cursor.tokens.head? = some token)
    (rest : ∀ placed others, cursor.rest = placed :: others → placed.token = token →
      Leads (cursor.behind placed others) (next ()) wanted) :
    Leads cursor (Reader.advance >>= next) wanted := by
  obtain ⟨placed, last, stop⟩ := cursor
  cases placed with
  | nil => cases found
  | cons placed others =>
    exact rest placed others rfl (Option.some.inj found)

theorem skip [DecidableEq τ] {token : τ} {next : Bool → Reader τ β}
    (taken : ∀ placed others, cursor.rest = placed :: others → placed.token = token →
      Leads (cursor.behind placed others) (next true) wanted)
    (left : cursor.tokens.head? ≠ some token → Leads cursor (next false) wanted) :
    Leads cursor (Reader.skip token >>= next) wanted := by
  rw [Reader.skip, bind_assoc]
  refine peek ?_
  split_ifs with found
  · rw [bind_assoc]
    refine advance found fun placed others shape same => ?_
    rw [pure_bind]
    exact taken placed others shape same
  · rw [pure_bind]
    exact left found

theorem tooDeep : Leads cursor (Reader.tooDeep : Reader τ α) good := place fail

end Leads

theorem Parses.leads (reads : Reads production before after P) {cursor : Cursor τ}
    (same : cursor.tokens = before) :
    Leads cursor production fun value cursor' => cursor'.tokens = after ∧ P value := by
  intro value cursor' runs
  obtain ⟨value', cursor'', runs', good⟩ := (reads cursor same).1 trivial
  cases runs.symm.trans runs'
  exact good

/-! ### Every success -/

/-- On tokens of which all meet `proper`, every success of the production has a good
value, and leaves such tokens. -/
def Gives (proper : τ → Prop) (production : Reader τ α) (good : α → Prop) : Prop :=
  ∀ cursor : Cursor τ, (∀ token ∈ cursor.tokens, proper token) → ∀ value cursor',
    StateT.run production cursor = .ok (value, cursor') →
      good value ∧ ∀ token ∈ cursor'.tokens, proper token

namespace Gives

variable {proper : τ → Prop} {P P' : α → Prop} {Q : β → Prop}

theorem pure {value : α} (holds : P value) :
    Gives proper (Pure.pure value : Reader τ α) P := by
  rintro cursor propers _ _ ⟨⟩
  exact ⟨holds, propers⟩

theorem bind {production : Reader τ α} {next : α → Reader τ β}
    (first : Gives proper production P)
    (rest : ∀ value, P value → Gives proper (next value) Q) :
    Gives proper (production >>= next) Q := by
  intro cursor propers
  refine Leads.bind (first cursor propers) ?_
  rintro value cursor' ⟨holds, propers'⟩
  exact rest value holds cursor' propers'

theorem map {production : Reader τ α} {change : α → β} (gives : Gives proper production P)
    (better : ∀ value, P value → Q (change value)) :
    Gives proper (change <$> production) Q := by
  rw [map_eq_pure_bind]
  exact gives.bind fun value holds => .pure (better value holds)

/-- Nothing is asked of the tokens or the value. -/
theorem anything {production : Reader τ α} : Gives (fun _ => True) production fun _ => True :=
  fun _ _ _ _ _ => ⟨trivial, fun _ _ => trivial⟩

theorem mono {production : Reader τ α} (gives : Gives proper production P)
    (better : ∀ value, P value → P' value) : Gives proper production P' := by
  intro cursor propers
  refine Leads.mono (gives cursor propers) ?_
  rintro value cursor' ⟨holds, propers'⟩
  exact ⟨better value holds, propers'⟩

theorem lift {result : Except ReadError α} (holds : ∀ value, result = .ok value → P value) :
    Gives proper (liftM result : Reader τ α) P :=
  fun _ propers => Leads.lift fun value succeeds => ⟨holds value succeeds, propers⟩

theorem fail {span : Span} {message : String} :
    Gives proper (Reader.fail span message : Reader τ α) P := fun _ _ => Leads.fail

theorem peek : Gives proper Reader.peek? fun found => ∀ token ∈ found, proper token := by
  rintro cursor propers _ _ ⟨⟩
  refine ⟨fun token found => propers token ?_, propers⟩
  rw [← List.head?_map] at found
  exact List.mem_of_mem_head? found

theorem second : Gives proper (Reader.second? : Reader τ _) fun _ => True := by
  rintro cursor propers _ _ ⟨⟩
  exact ⟨trivial, propers⟩

theorem remaining : Gives proper (Reader.remaining : Reader τ _) fun _ => True := by
  rintro cursor propers _ _ ⟨⟩
  exact ⟨trivial, propers⟩

theorem place : Gives proper (Reader.place : Reader τ _) fun _ => True := by
  rintro cursor propers _ _ ⟨⟩
  exact ⟨trivial, propers⟩

theorem start : Gives proper (Reader.start : Reader τ _) fun _ => True :=
  place.bind fun _ _ => .pure trivial

theorem spanFrom {first : Nat} :
    Gives proper (Reader.spanFrom first : Reader τ _) fun _ => True := by
  rintro cursor propers _ _ ⟨⟩
  exact ⟨trivial, propers⟩

theorem advance : Gives proper (Reader.advance : Reader τ _) fun _ => True := by
  rintro ⟨rest, last, stop⟩ propers _ _ ⟨⟩
  refine ⟨trivial, fun token found => propers token ?_⟩
  cases rest with
  | nil => exact found
  | cons placed rest => exact List.mem_cons_of_mem _ found

theorem skip [DecidableEq τ] {token : τ} : Gives proper (Reader.skip token) fun _ => True := by
  refine peek.bind fun found _ => ?_
  split
  · exact advance.bind fun _ _ => .pure trivial
  · exact .pure trivial

theorem tooDeep : Gives proper (Reader.tooDeep : Reader τ α) P :=
  place.bind fun _ _ => .fail

/-- What holds of the value of a production that reads all of a list of tokens. -/
theorem run {production : Reader τ α} (gives : Gives proper production P)
    {tokens : List (Placed τ)} (propers : ∀ placed ∈ tokens, proper placed.token) {stop : Nat}
    {value : α} (succeeds : Reader.run production tokens stop = .ok value) : P value := by
  obtain ⟨⟨value, cursor'⟩, runs, rfl⟩ := Outcome.map_eq_ok.1 succeeds
  exact (gives ⟨tokens, 0, stop⟩ (by simpa [Cursor.tokens] using propers) value cursor' runs).1

end Gives

/-- The same for one list of tokens. -/
def GivesOn (proper : τ → Prop) (before : List τ) (production : Reader τ α)
    (good : α → Prop) : Prop :=
  ∀ cursor : Cursor τ, cursor.tokens = before → (∀ token ∈ before, proper token) →
    ∀ value cursor', StateT.run production cursor = .ok (value, cursor') →
      good value ∧ ∀ token ∈ cursor'.tokens, proper token

namespace GivesOn

variable {proper : τ → Prop}

/-- Nothing depends on the tokens any more. -/
theorem of_gives (gives : Gives proper production P) : GivesOn proper before production P :=
  fun cursor same propers => gives cursor (same ▸ propers)

theorem gives (each : ∀ before, GivesOn proper before production P) : Gives proper production P :=
  fun cursor propers => each _ cursor rfl propers

/-- The first step is known to succeed, and leaves some of the tokens. -/
theorem bind (first : Reads production before middle P) (fewer : middle ⊆ before)
    (rest : ∀ value, P value → GivesOn proper middle (next value) Q) :
    GivesOn proper before (production >>= next) Q := by
  intro cursor same propers
  refine Leads.bind (first.leads same) ?_
  rintro value cursor' ⟨same', good⟩
  exact rest value good cursor' same' fun token found => propers token (fewer found)

/-- Only the first step depends on the tokens. -/
theorem andThen (first : GivesOn proper before production P)
    (rest : ∀ value, P value → Gives proper (next value) Q) :
    GivesOn proper before (production >>= next) Q := by
  intro cursor same propers
  refine Leads.bind (first cursor same propers) ?_
  rintro value cursor' ⟨holds, propers'⟩
  exact rest value holds cursor' propers'

theorem peek {next : Option τ → Reader τ β} (rest : GivesOn proper before (next before.head?) Q) :
    GivesOn proper before (Reader.peek? >>= next) Q := by
  rintro cursor rfl propers
  exact Leads.peek (rest cursor rfl propers)

theorem second {next : Option τ → Reader τ β} (rest : GivesOn proper before (next before[1]?) Q) :
    GivesOn proper before (Reader.second? >>= next) Q := by
  rintro cursor rfl propers
  exact Leads.second (rest cursor rfl propers)

theorem remaining {next : Nat → Reader τ β} (rest : GivesOn proper before (next before.length) Q) :
    GivesOn proper before (Reader.remaining >>= next) Q := by
  rintro cursor rfl propers
  have length : cursor.tokens.length = cursor.rest.length := List.length_map ..
  exact Leads.remaining (length ▸ rest cursor rfl propers)

theorem place {next : Span → Reader τ β} (rest : ∀ span, GivesOn proper before (next span) Q) :
    GivesOn proper before (Reader.place >>= next) Q :=
  fun cursor same propers => Leads.place (rest cursor.place cursor same propers)

/-- What the first token is decides how to go on. -/
theorem skip [DecidableEq τ] {token : τ} {next : Bool → Reader τ β}
    (taken : before.head? = some token → Gives proper (next true) Q)
    (left : before.head? ≠ some token → Gives proper (next false) Q) :
    GivesOn proper before (Reader.skip token >>= next) Q := by
  by_cases found : before.head? = some token
  · obtain ⟨others, rfl⟩ := List.head?_eq_some_iff.1 found
    refine bind (show Reads (Reader.skip token) _ others _ from Parses.taken) (by simp) ?_
    rintro _ rfl
    exact of_gives (taken found)
  · refine bind (Parses.left found) (List.Subset.refl _) ?_
    rintro _ rfl
    exact of_gives (left found)

theorem spanFrom {first : Nat} {next : Span → Reader τ β}
    (rest : ∀ span, GivesOn proper before (next span) Q) :
    GivesOn proper before (Reader.spanFrom first >>= next) Q :=
  fun cursor same propers => Leads.spanFrom (rest _ cursor same propers)

/-- The tokens are proper to begin with. -/
theorem assuming (rest : (∀ token ∈ before, proper token) → GivesOn proper before production P) :
    GivesOn proper before production P :=
  fun cursor same propers => rest propers cursor same propers

end GivesOn

end EventQuery.Reading
