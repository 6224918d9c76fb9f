import EventQuery.Proofs.ExpressionActivations
import EventQuery.Proofs.PatternActivations

/-!
Reading ends on all tokens, however many there are and whatever they are. The loops of the readers
are written with as many rounds as there are tokens; they end by themselves before these are used
up, since every round reads a token. The productions are written with as many levels as may be
nested; a run of them never has more of them active.
-/
namespace EventQuery.Reading

variable {τ α : Type}

/-- The whole reads with the reader, and fails if that leaves a token. -/
def ReadsAll (whole reader : Reader τ α) : Prop :=
  ∀ tokens stop, match StateT.run reader ⟨tokens, 0, stop⟩ with
    | .error cause => whole.run tokens stop = .error cause
    | .ok (value, cursor) =>
      if cursor.rest = [] then whole.run tokens stop = .ok value
      else ∃ message, whole.run tokens stop = .error ⟨cursor.place, message⟩

theorem ReadsAll.intro {whole reader : Reader τ α} {rest : α → Reader τ α}
    (same : whole = reader >>= rest)
    (ends : ∀ value last stop,
      StateT.run (rest value) ⟨[], last, stop⟩ = .ok (value, ⟨[], last, stop⟩))
    (fails : ∀ value placed others last stop, ∃ message,
      StateT.run (rest value) ⟨placed :: others, last, stop⟩ = .error ⟨placed.span, message⟩) :
    ReadsAll whole reader := by
  intro tokens stop
  have runs : whole.run tokens stop = Prod.fst <$>
      (StateT.run reader ⟨tokens, 0, stop⟩ >>= fun result =>
        StateT.run (rest result.1) result.2) := by
    rw [same]
    rfl
  rw [runs]
  cases StateT.run reader ⟨tokens, 0, stop⟩ with
  | error cause => rfl
  | ok result =>
    obtain ⟨value, tokens', last, stop'⟩ := result
    cases tokens' with
    | nil => exact congrArg (Functor.map Prod.fst) (ends value last stop')
    | cons placed others =>
      obtain ⟨message, fails⟩ := fails value placed others last stop'
      exact ⟨message, congrArg (Functor.map Prod.fst) fails⟩

theorem ExpressionReader.readsAll_whole : ReadsAll whole (nested nestingLimit .expression) :=
  .intro rfl (fun _ _ _ => rfl) fun _ _ _ _ _ => ⟨_, rfl⟩

theorem PatternReader.readsAll_whole : ReadsAll whole (nested nestingLimit ()) :=
  .intro rfl (fun _ _ _ => rfl) fun _ _ _ _ _ => ⟨_, rfl⟩

/-- Both readers end, with not more than 256 productions active at any time, and so does every
loop of theirs. -/
theorem reading_ends :
    (ReadsAll ExpressionReader.whole (ExpressionReader.nested nestingLimit .expression) ∧
      BoundedBy 256 ExpressionReader.body .expression
        (ExpressionReader.nested nestingLimit .expression) ∧
      ∀ levels, ExpressionReader.LoopsEnd (ExpressionReader.productions levels)) ∧
    (ReadsAll PatternReader.whole (PatternReader.nested nestingLimit ()) ∧
      BoundedBy 256 PatternReader.body () (PatternReader.nested nestingLimit ()) ∧
      ∀ levels, PatternReader.LoopsEnd (PatternReader.pattern levels)) :=
  ⟨⟨ExpressionReader.readsAll_whole,
    ExpressionReader.levels_nested.boundedBy ExpressionReader.deepening_body .expression,
    ExpressionReader.loops_end⟩,
    PatternReader.readsAll_whole,
    PatternReader.levels_nested.boundedBy PatternReader.deepening_body (),
    PatternReader.loops_end⟩

end EventQuery.Reading
