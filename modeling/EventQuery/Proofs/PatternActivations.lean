import EventQuery.Proofs.ActivationTrees
import EventQuery.Proofs.PatternPhrases

/-!
The activations of the pattern reader. Only whole patterns are entered: an atom in parentheses
reads its parenthesis first.
-/
namespace EventQuery.Reading.PatternReader

variable {α β : Type} {cursor start : Cursor PatternToken}

/-- What a pattern does with patterns one level deeper. -/
def body (_ : Unit) (productions : Unit → Production Pattern) : Production Pattern :=
  separated .alternatives .pipe (separated .sequence .colon (item (productions ())))

/-- The pattern when that many levels are free. -/
def nested (levels : Nat) (_ : Unit) : Production Pattern := pattern levels

theorem levels_nested : Levels body nested where
  zero _ := rfl
  succ _ _ := rfl

/-! ### Parts that call nothing -/

theorem consumes_expect {token : PatternToken} {expected : String} :
    Consumes (expect token expected) :=
  fun _ => .skip (fun _ _ shape _ => .pure (Cursor.passes_behind shape)) fun _ => leads_unexpected

theorem forward_unexpected {expected : String} : Forward (unexpected expected : Production α) :=
  fun _ => leads_unexpected

theorem consumes_number : Consumes number := by
  refine .later .skip fun negative => .later (.look fun _ => rfl) fun span cursor => .peek ?_
  split
  · rename_i found
    refine .advance found fun _ _ shape _ => ?_
    dsimp only
    split
    · exact .pure (Cursor.passes_behind shape)
    · exact .fail
  · exact leads_unexpected

theorem forward_bracedBounds : Forward bracedBounds := by
  have limit : Forward (some <$> number) := consumes_number.map.forward
  refine .bind .skip fun unbounded => .either .pure limit fun least => .bind .skip fun ends => ?_
  have others {least : Option Int64} : Forward (do
      expect .comma "`,` or `\x7d`"
      let unlimited ← if least.isSome then Reader.skip .star else pure false
      let most ← if unlimited then pure none else some <$> number
      expect .closeBrace "`\x7d`"
      return (least.getD 0, most) : Production (Int64 × Option Int64)) :=
    consumes_expect.forward.bind fun _ => .either .skip .pure fun unlimited =>
      .either .pure limit fun most => consumes_expect.forward.bind fun _ => .pure
  cases ends with
  | false => exact others
  | true =>
    cases least with
    | some exact => exact .pure
    | none => exact forward_unexpected.bind fun _ => others

/-- A quantifier takes at least one token. -/
theorem moves_quantifier? : Leads cursor quantifier? fun found cursor' =>
    if found.isSome then cursor.Passes cursor' else cursor' = cursor := by
  refine .peek ?_
  split
  · rename_i found
    exact .advance found fun _ _ shape _ => .pure (Cursor.passes_behind shape)
  · rename_i found
    exact .advance found fun _ _ shape _ => .pure (Cursor.passes_behind shape)
  · rename_i found
    exact .advance found fun _ _ shape _ => .pure (Cursor.passes_behind shape)
  · rename_i found
    refine .advance found fun _ _ shape _ => (forward_bracedBounds _).bind fun _ _ reaches => .pure ?_
    exact (Cursor.passes_behind shape).trans_reaches reaches
  · exact .pure rfl

theorem forward_quantifier? : Forward quantifier? := by
  refine fun cursor => moves_quantifier?.mono fun found cursor' moved => ?_
  cases found with
  | none => exact moved ▸ .refl cursor
  | some bounds => exact moved.1

theorem forward_bracketRest {rounds : Nat} : Forward (bracketRest rounds) := by
  induction rounds with
  | zero => exact forward_unexpected
  | succ rounds ih =>
    refine .bind .skip fun closes => ?_
    cases closes with
    | true => exact .pure
    | false => exact consumes_number.forward.bind fun step => ih.bind fun _ => .pure

theorem consumes_bracket {first : Nat} : Consumes (bracket first) := by
  refine .later .skip fun negating => consumes_expect.bind fun _ => ?_
  refine consumes_number.forward.bind fun step => .bind (.look fun _ => rfl) fun rounds => ?_
  exact forward_bracketRest.bind fun steps => .bind (.look fun _ => rfl) fun span => .pure

theorem forward_quantified {first rounds : Nat} {value : Pattern} :
    Forward (quantified first rounds value) := by
  induction rounds generalizing value with
  | zero => exact .pure
  | succ rounds ih =>
    refine forward_quantifier?.bind fun found => ?_
    cases found with
    | none => exact .pure
    | some bounds => exact .bind (.look fun _ => rfl) fun span => ih

/-! ### Parts that call patterns -/

section
variable {productions : Unit → Production Pattern}
  (consumes : ∀ production, Consumes (productions production))
include consumes

theorem proceeds_atom : Proceeds productions fun productions => atom (productions ()) := by
  refine fun cursor => .look rfl (.peek ?_)
  have parenthesis (change : Pattern → Pattern) {cursor₁ : Cursor PatternToken}
      (opened : cursor.Passes cursor₁) : Walks productions cursor cursor₁ (fun productions => do
        let inner ← productions ()
        expect .closeParen "`)`"
        return change inner) fun _ cursor' => cursor.Passes cursor' := by
    refine (Walks.enter () (consumes _) opened).bind fun inner cursor₂ _ read => ?_
    refine consumes_expect.after fun _ cursor₃ closed => .pure ?_
    exact opened.trans_reaches (read.1.trans closed.1)
  have step : Walks productions cursor cursor (fun _ => do
      let id ← number
      return Pattern.step (← Reader.spanFrom cursor.place.start) id true)
      fun _ cursor' => cursor.Passes cursor' :=
    consumes_number.after fun _ _ read => .look rfl (.pure read)
  cases found : cursor.tokens.head? with
  | none => exact .steps leads_unexpected
  | some token =>
    cases token with
    | openSilent => exact .advance found fun _ opened => parenthesis Pattern.silent opened
    | openParen => exact .advance found fun _ opened => parenthesis id opened
    | caret => exact consumes_bracket.proceeds cursor
    | openBracket => exact consumes_bracket.proceeds cursor
    | minus => exact step
    | number text => exact step
    | _ => exact .steps leads_unexpected

theorem proceeds_item : Proceeds productions fun productions => item (productions ()) := by
  refine fun cursor => .look rfl ((proceeds_atom consumes cursor).bind fun read cursor₁ _ passes => ?_)
  exact .look rfl (.steps ((forward_quantified cursor₁).mono fun _ _ reaches =>
    ⟨reaches, passes.trans_reaches reaches⟩))

variable {part : (Unit → Production Pattern) → Production Pattern}

omit consumes in
theorem walks_itemsRest (proceeds : Proceeds productions part) {separator : PatternToken}
    {rounds : Nat} : Walks productions cursor cursor
      (fun productions => itemsRest separator (part productions) rounds) fun _ _ => True := by
  induction rounds generalizing cursor with
  | zero => exact .pure trivial
  | succ rounds ih =>
    refine .skip (fun cursor₁ passes => ?_) (.pure trivial)
    refine ((proceeds cursor₁).earlier passes.1).bind fun next cursor₂ _ read => ?_
    exact (ih.earlier (passes.1.trans read.1)).bind fun others _ _ _ => .pure trivial

omit consumes in
theorem proceeds_separated (proceeds : Proceeds productions part) {op : ListOp}
    {separator : PatternToken} :
    Proceeds productions fun productions => separated op separator (part productions) := by
  refine fun cursor => .look rfl ((proceeds cursor).bind fun head cursor₁ _ passes => .look rfl ?_)
  refine (((walks_itemsRest proceeds).earlier passes.1).behind passes).bind
    fun others cursor₂ _ read => ?_
  cases others with
  | nil => exact .pure read
  | cons => exact .look rfl (.pure read)

end

theorem deepening_body : Deepening body := fun _ consumes _ =>
  proceeds_separated (proceeds_separated (proceeds_item consumes))

/-! ### Loops -/

/-- One more step of a bracket. -/
def nextStep (_ : Unit) (again : Unit → Production (List Int64)) : Production (List Int64) := do
  if ← Reader.skip .closeBracket then return []
  let step ← number
  return step :: (← again ())

def stepsLoop (rounds : Nat) (_ : Unit) : Production (List Int64) := bracketRest rounds

def aroundSteps (first : Nat) (again : Unit → Production (List Int64)) : Production Pattern := do
  let negating ← Reader.skip .caret
  expect .openBracket "`[`"
  let step ← number
  let steps ← again ()
  return .bracket (← Reader.spanFrom first) negating (step :: steps) true

theorem holds_steps {first : Nat} : Holds (aroundSteps first) (bracket first) stepsLoop 1 := by
  refine ⟨rfl, fun again cursor => ?_⟩
  refine .after (Forward.skip cursor) fun negating cursor₁ caret => ?_
  refine .after (consumes_expect cursor₁) fun _ cursor₂ opened => ?_
  refine .after (consumes_number cursor₂) fun step cursor₃ read => .before (.enter () ?_)
  exact (caret.trans_passes opened).trans_reaches read.1

theorem ends_steps : Ends nextStep stepsLoop 1 := by
  refine .intro (fun _ _ => rfl) (fun rounds _ cursor => ?_) fun spare => absurd spare (by decide)
  refine .skip (fun _ _ => .steps) ?_
  exact .after (consumes_number cursor) fun step cursor₁ read => .before (.enter () read)

/-- One more quantifier behind an item that starts somewhere. -/
def nextQuantifier (item : Nat × Pattern) (again : Nat × Pattern → Production Pattern) :
    Production Pattern := do
  match ← quantifier? with
  | none => return item.2
  | some (least, most) =>
    let span ← Reader.spanFrom item.1
    again (item.1, .repetition span least most item.2 item.2.capturing)

def quantifiersLoop (rounds : Nat) (item : Nat × Pattern) : Production Pattern :=
  quantified item.1 rounds item.2

def aroundQuantifiers (deeper : Production Pattern) (again : Nat × Pattern → Production Pattern) :
    Production Pattern := do
  let first ← Reader.start
  let read ← atom deeper
  again (first, read)

theorem holds_quantifiers {deeper : Production Pattern} (consumes : Consumes (atom deeper)) :
    Holds (aroundQuantifiers deeper) (item deeper) quantifiersLoop 0 :=
  ⟨rfl, fun _ cursor => .look rfl (.after (consumes cursor) fun _ _ read => .enter _ read)⟩

theorem ends_quantifiers : Ends nextQuantifier quantifiersLoop 0 := by
  refine .intro (fun _ _ => rfl) (fun rounds item cursor => ?_) fun _ _ _ _ => rfl
  refine .after moves_quantifier? fun found cursor₁ moved => ?_
  cases found with
  | none => exact .steps
  | some bounds => exact .look rfl (.enter _ moved)

/-- One more item of a list. -/
def nextItem (separator : PatternToken) (item : Production Pattern) (_ : Unit)
    (again : Unit → Production (List Pattern)) : Production (List Pattern) := do
  if ← Reader.skip separator then
    let next ← item
    return next :: (← again ())
  else return []

def itemsLoop (separator : PatternToken) (item : Production Pattern) (rounds : Nat) (_ : Unit) :
    Production (List Pattern) :=
  itemsRest separator item rounds

def aroundItems (op : ListOp) (item : Production Pattern)
    (again : Unit → Production (List Pattern)) : Production Pattern := do
  let first ← Reader.start
  let head ← item
  match ← again () with
  | [] => return head
  | others => return .list (← Reader.spanFrom first) op (head :: others) true

section
variable {item : Production Pattern} {separator : PatternToken}

theorem holds_items (consumes : Consumes item) {op : ListOp} :
    Holds (aroundItems op item) (separated op separator item) (itemsLoop separator item) 0 :=
  ⟨rfl, fun _ cursor => .look rfl (.after (consumes cursor) fun _ _ read =>
    .before (.enter () read))⟩

theorem ends_items (consumes : Consumes item) :
    Ends (nextItem separator item) (itemsLoop separator item) 0 := by
  refine .intro (fun _ _ => rfl) (fun rounds _ cursor => ?_) fun _ _ _ _ => rfl
  refine .skip (fun cursor₁ passes => ?_) .steps
  exact .after (consumes cursor₁) fun next cursor₂ read =>
    .before (.enter () (passes.trans_reaches read.1))

end

/-- The loops of the reader, whatever is one level deeper: where they are, and that they end. -/
structure LoopsEnd (deeper : Production Pattern) : Prop where
  steps : (∀ first, Holds (aroundSteps first) (bracket first) stepsLoop 1) ∧ Ends nextStep stepsLoop 1
  quantifiers : Holds (aroundQuantifiers deeper) (item deeper) quantifiersLoop 0 ∧
    Ends nextQuantifier quantifiersLoop 0
  items : Holds (aroundItems .sequence (item deeper)) (separated .sequence .colon (item deeper))
      (itemsLoop .colon (item deeper)) 0 ∧
    Ends (nextItem .colon (item deeper)) (itemsLoop .colon (item deeper)) 0
  sequences : Holds (aroundItems .alternatives (separated .sequence .colon (item deeper)))
      (separated .alternatives .pipe (separated .sequence .colon (item deeper)))
      (itemsLoop .pipe (separated .sequence .colon (item deeper))) 0 ∧
    Ends (nextItem .pipe (separated .sequence .colon (item deeper)))
      (itemsLoop .pipe (separated .sequence .colon (item deeper))) 0

theorem loops_end (levels : Nat) : LoopsEnd (pattern levels) := by
  have consumes := levels_nested.consumes deepening_body levels
  have atoms := (proceeds_atom consumes).consumes
  have items := (proceeds_item consumes).consumes
  have sequences : Consumes (separated .sequence .colon (item (pattern levels))) :=
    (proceeds_separated (proceeds_item consumes)).consumes
  exact {
    steps := ⟨fun _ => holds_steps, ends_steps⟩
    quantifiers := ⟨holds_quantifiers atoms, ends_quantifiers⟩
    items := ⟨holds_items items, ends_items items⟩
    sequences := ⟨holds_items sequences, ends_items sequences⟩ }

end EventQuery.Reading.PatternReader
