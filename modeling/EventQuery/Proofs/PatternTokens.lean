import EventQuery.Pattern.Text
import EventQuery.Proofs.Nesting
import EventQuery.Proofs.Numerals
import EventQuery.Proofs.Scanning
import EventQuery.Reading.PatternReader

/-!
Patterns that have a text of their own, the tokens of that text, and how deep it is
nested.
-/
namespace EventQuery.Pattern

open Reading (PatternToken Lexes anywhere toString_text)
open Reading.PatternReader (lexeme)
open Number.Reader (isDigit)

/-! ### Patterns -/

/-- Lists have several items, brackets have steps, a repetition captures if its child does,
and nothing captures inside a node that does not. -/
inductive Regular : Pattern → Prop
  | step {span : Span} {id : Int64} {capturing : Bool} : Regular (step span id capturing)
  | list {span : Span} {op : ListOp} {items : List Pattern} {capturing : Bool}
    (several : 2 ≤ items.length) (each : ∀ item ∈ items, Regular item)
    (silenced : capturing = false → ∀ item ∈ items, item.capturing = false) :
    Regular (list span op items capturing)
  | repetition {span : Span} {least : Int64} {most : Option Int64} {child : Pattern}
    (inner : Regular child) : Regular (repetition span least most child child.capturing)
  | bracket {span : Span} {negating : Bool} {steps : List Int64} {capturing : Bool}
    (nonempty : steps ≠ []) : Regular (bracket span negating steps capturing)

mutual

/-- The pattern with no spans. -/
def unspanned : Pattern → Pattern
  | step _ id capturing => step .none id capturing
  | list _ op items capturing => list .none op (unspannedAll items) capturing
  | repetition _ least most child capturing =>
    repetition .none least most child.unspanned capturing
  | bracket _ negating steps capturing => bracket .none negating steps capturing

def unspannedAll : List Pattern → List Pattern
  | [] => []
  | item :: rest => item.unspanned :: unspannedAll rest

end

theorem unspannedAll_eq_map (items : List Pattern) : unspannedAll items = items.map unspanned := by
  induction items with
  | nil => rfl
  | cons item rest ih => rw [unspannedAll, ih, List.map_cons]

theorem silentAll_eq_map (items : List Pattern) : silentAll items = items.map silent := by
  induction items with
  | nil => rfl
  | cons item rest ih => rw [silentAll, ih, List.map_cons]

theorem capturing_unspanned (pattern : Pattern) :
    pattern.unspanned.capturing = pattern.capturing := by
  cases pattern <;> rfl

theorem capturing_silent (pattern : Pattern) : pattern.silent.capturing = false := by
  cases pattern <;> rfl

theorem Regular.silent {pattern : Pattern}
    (regular : pattern.Regular) : pattern.silent.Regular := by
  induction regular with
  | step => exact .step
  | @list span op items capturing several each silenced ih =>
    rw [Pattern.silent, silentAll_eq_map]
    refine .list (by simpa using several) (List.forall_mem_map.2 ih) fun _ => ?_
    exact List.forall_mem_map.2 fun item _ => capturing_silent item
  | @repetition span least most child inner ih =>
    rw [Pattern.silent, ← capturing_silent child]
    exact .repetition ih
  | bracket nonempty => exact .bracket nonempty

/-! ### Tokens -/

def integerTokens (id : Int64) : List PatternToken :=
  (if id.toInt < 0 then [.minus] else []) ++ [.number (toString id.toInt.natAbs)]

/-- Tokens in braces. -/
def bracedTokens (tokens : List PatternToken) : List PatternToken :=
  .openBrace :: (tokens ++ [.closeBrace])

def boundsTokens (least : Int64) (most : Option Int64) : List PatternToken :=
  match most with
  | none => integerTokens least ++ [.comma, .star]
  | some most =>
    if least = most then integerTokens least else integerTokens least ++ .comma :: integerTokens most

def quantifierTokens (least : Int64) (most : Option Int64) : List PatternToken :=
  match most with
  | none =>
    if least = 0 then [.star]
    else if least = 1 then [.plus]
    else bracedTokens (boundsTokens least none)
  | some most =>
    if least = 0 ∧ most = 1 then [.question] else bracedTokens (boundsTokens least (some most))

def groupedTokens (opens : Bool) (tokens : List PatternToken) : List PatternToken :=
  if opens then .openSilent :: (tokens ++ [.closeParen]) else tokens

def bracketTokens (negating : Bool) (steps : List Int64) : List PatternToken :=
  (if negating then [.caret] else []) ++
    .openBracket :: ((steps.map integerTokens).flatten ++ [.closeBracket])

/-- The token between the items of a list. -/
def separatorToken : ListOp → PatternToken
  | .sequence => .colon
  | .alternatives => .pipe

mutual

/-- The tokens of the text of a node. -/
def tokensWithin (capture inner : Bool) : Pattern → List PatternToken
  | step _ id capturing => groupedTokens (capture && !capturing) (integerTokens id)
  | list _ op items capturing =>
    let opens := capture && !capturing
    let tokens := [separatorToken op].intercalate (tokensWithinAll capturing items)
    groupedTokens opens
      (if inner && !opens then .openParen :: (tokens ++ [.closeParen]) else tokens)
  | repetition _ least most child capturing =>
    let opens := capture && !capturing
    groupedTokens opens (child.tokensWithin (capturing && !opens) (!opens)) ++
      quantifierTokens least most
  | bracket _ negating steps capturing =>
    groupedTokens (capture && !capturing) (bracketTokens negating steps)

def tokensWithinAll (capture : Bool) : List Pattern → List (List PatternToken)
  | [] => []
  | item :: rest => item.tokensWithin capture true :: tokensWithinAll capture rest

end

mutual

/-- How deep the text of a node is nested. -/
def heightWithin (capture inner : Bool) : Pattern → Nat
  | step _ _ capturing => (capture && !capturing).toNat
  | list _ _ items capturing =>
    (heightsWithin capturing items).foldr max 0 + (inner || capture && !capturing).toNat
  | repetition _ _ _ child capturing =>
    let opens := capture && !capturing
    child.heightWithin (capturing && !opens) (!opens) + opens.toNat
  | bracket _ _ _ capturing => (capture && !capturing).toNat

def heightsWithin (capture : Bool) : List Pattern → List Nat
  | [] => []
  | item :: rest => item.heightWithin capture true :: heightsWithin capture rest

end

theorem textsWithin_eq_map (capture : Bool) (items : List Pattern) :
    textsWithin capture items = items.map (textWithin capture true) := by
  induction items with
  | nil => rfl
  | cons item rest ih => rw [textsWithin, ih, List.map_cons]

theorem tokensWithinAll_eq_map (capture : Bool) (items : List Pattern) :
    tokensWithinAll capture items = items.map (tokensWithin capture true) := by
  induction items with
  | nil => rfl
  | cons item rest ih => rw [tokensWithinAll, ih, List.map_cons]

theorem heightsWithin_eq_map (capture : Bool) (items : List Pattern) :
    heightsWithin capture items = items.map (heightWithin capture true) := by
  induction items with
  | nil => rfl
  | cons item rest ih => rw [heightsWithin, ih, List.map_cons]

/-! ### Scanning -/

/-- What may follow a number. -/
def NoDigit (rest : List Char) : Prop := ∀ c ∈ rest.head?, isDigit c = false

theorem lexeme_digit {c : Char} {rest : List Char} (digit : isDigit c = true) :
    lexeme c rest = .token (.number (String.ofList (c :: rest.takeWhile isDigit)))
      (rest.takeWhile isDigit).length := by
  unfold lexeme
  split <;> first | exact absurd digit (by decide) | rw [if_pos digit]

theorem lexes_digits (n : Nat) :
    Lexes lexeme NoDigit (toString n).toList [.number (toString n)] := by
  obtain ⟨first, others, shape, digit, digits⟩ := Number.Reader.exists_toDigits_eq_cons n
  rw [Number.Reader.toList_toString, Nat.toString_eq_ofList_toDigits, shape]
  refine .token (Reading.isSpace_of_isDigit digit) fun rest stops => ?_
  rw [lexeme_digit digit, Reading.takeWhile_append digits stops]

theorem lexes_integer (id : Int64) :
    Lexes lexeme NoDigit (toString id).toList (integerTokens id) := by
  rw [Number.Reader.toString_int64, integerTokens]
  split_ifs with negative
  · rw [String.toList_append]
    have minus : Lexes lexeme anywhere "-".toList [.minus] := .token (by decide) fun _ _ => rfl
    exact minus.append (lexes_digits _) fun _ _ => trivial
  · exact lexes_digits _

/-- A character that is a token of its own wherever it stands. -/
theorem lexes_mark {c : Char} {token : PatternToken} (visible : Reading.isSpace c = false)
    (taken : ∀ rest, lexeme c rest = .token token 0) : Lexes lexeme anywhere [c] [token] :=
  .token visible fun rest _ => taken rest

/-- A parenthesis opens a group that captures, unless a question mark follows. -/
theorem lexes_openParen :
    Lexes lexeme (fun rest => ∀ c ∈ rest.head?, c ≠ '?') ['('] [.openParen] := by
  refine .token (by decide) fun rest other => ?_
  cases rest with
  | nil => rfl
  | cons c rest =>
    unfold lexeme
    split
    · rename_i same
      cases same
      exact absurd rfl (other '?' rfl)
    all_goals first | rfl | simp_all

theorem lexes_openSilent : Lexes lexeme anywhere "(?:".toList [.openSilent] :=
  .token (by decide) fun _ _ => rfl

theorem lexes_closeParen : Lexes lexeme anywhere [')'] [.closeParen] :=
  lexes_mark (by decide) fun _ => rfl

variable {piece : List Char} {tokens : List PatternToken}

/-- The pieces of the text that end in a mark may stand anywhere. -/
theorem lexes_braced (inner : Lexes lexeme NoDigit piece tokens) :
    Lexes lexeme anywhere ('\x7b' :: (piece ++ ['\x7d'])) (bracedTokens tokens) := by
  have opens : Lexes lexeme anywhere ['\x7b'] [.openBrace] := lexes_mark (by decide) fun _ => rfl
  have closes : Lexes lexeme anywhere ['\x7d'] [.closeBrace] := lexes_mark (by decide) fun _ => rfl
  refine opens.append (inner.append closes fun rest _ => ?_) fun _ _ => trivial
  rintro c ⟨⟩
  decide

theorem lexes_quantifier (least : Int64) (most : Option Int64) :
    Lexes lexeme anywhere (quantifierText least most).toList (quantifierTokens least most) := by
  have comma : Lexes lexeme anywhere [','] [.comma] := lexes_mark (by decide) fun _ => rfl
  have star : Lexes lexeme anywhere ['*'] [.star] := lexes_mark (by decide) fun _ => rfl
  have behind (rest : List Char) : NoDigit (',' :: rest) := by
    rintro c ⟨⟩
    decide
  unfold quantifierText quantifierTokens
  cases most with
  | none =>
    dsimp only
    split_ifs with none one
    · exact star
    · exact lexes_mark (by decide) fun _ => rfl
    · have inner := (lexes_integer least).append ((comma.append star fun _ _ => trivial).imp
        (G := NoDigit) fun _ _ => trivial) fun rest _ => behind _
      simpa [boundsTokens, bracedTokens, toString_text] using lexes_braced inner
  | some most =>
    dsimp only
    split_ifs with optional exact
    · exact lexes_mark (by decide) fun _ => rfl
    · simpa [boundsTokens, exact, toString_text] using lexes_braced (lexes_integer least)
    · have inner := (lexes_integer least).append
        ((comma.append (lexes_integer most) fun _ _ => trivial)) fun rest _ => behind _
      simpa [boundsTokens, exact, bracedTokens, toString_text] using lexes_braced inner

/-- A quantifier ends the number in front of it. -/
theorem noDigit_quantifier (least : Int64) (most : Option Int64) (rest : List Char) :
    NoDigit ((quantifierText least most).toList ++ rest) := by
  intro c found
  unfold quantifierText at found
  cases most with
  | none =>
    dsimp only at found
    split_ifs at found <;> simp [toString_text] at found <;> subst found <;> decide
  | some most =>
    dsimp only at found
    split_ifs at found <;> simp [toString_text] at found <;> subst found <;> decide

theorem lexes_grouped {text : String} (opens : Bool)
    (inner : Lexes lexeme NoDigit text.toList tokens) :
    Lexes lexeme NoDigit (grouped opens text).toList (groupedTokens opens tokens) := by
  unfold grouped groupedTokens
  cases opens with
  | false => exact inner
  | true =>
    have closed := inner.append (G := NoDigit) (lexes_closeParen.imp fun _ _ => trivial) <| by
      rintro rest - c ⟨⟩
      decide
    simpa [toString_text] using lexes_openSilent.append closed fun _ _ => trivial

theorem lexes_bracket (negating : Bool) (steps : List Int64) :
    Lexes lexeme anywhere (bracketText negating steps).toList (bracketTokens negating steps) := by
  have blank : Lexes lexeme anywhere " ".toList [] := .space (by decide)
  have opens : Lexes lexeme anywhere ['['] [.openBracket] := lexes_mark (by decide) fun _ => rfl
  have closes : Lexes lexeme anywhere [']'] [.closeBracket] := lexes_mark (by decide) fun _ => rfl
  have caret : Lexes lexeme anywhere (if negating then "^" else "").toList
      (if negating then [.caret] else []) := by
    cases negating with
    | false => exact .nil
    | true => exact lexes_mark (by decide) fun _ => rfl
  have each : List.Forall₂ (Lexes lexeme NoDigit) ((steps.map toString).map String.toList)
      (steps.map integerTokens) := by
    rw [List.map_map, List.forall₂_map_left_iff, List.forall₂_map_right_iff, List.forall₂_same]
    exact fun id _ => lexes_integer id
  have inner := Lexes.intercalate blank (fun rest c found => by cases found; decide) each
  have whole := caret.append (opens.append (inner.append closes fun rest _ c found => by
    cases found; decide) fun _ _ => trivial) fun _ _ => trivial
  have flat : ([] : List PatternToken).intercalate (steps.map integerTokens) =
      (steps.map integerTokens).flatten := by
    induction steps.map integerTokens with
    | nil => rfl
    | cons first rest ih => cases rest <;> simp_all [List.intercalate]
  simpa [bracketText, bracketTokens, String.toList_intercalate, flat] using whole

/-- The text is not empty, and a parenthesis in front of it opens a group that captures. -/
def Begins (text : String) : Prop := ∃ first rest, text.toList = first :: rest ∧ first ≠ '?'

theorem Begins.append {text : String} (begins : Begins text) (more : String) :
    Begins (text ++ more) := by
  obtain ⟨first, rest, shape, other⟩ := begins
  exact ⟨first, rest ++ more.toList, by rw [String.toList_append, shape, List.cons_append], other⟩

theorem Begins.intercalate {text : String} (begins : Begins text) (separator : String)
    (others : List String) : Begins (separator.intercalate (text :: others)) := by
  cases others with
  | nil => rwa [String.intercalate_singleton]
  | cons second others =>
    rw [String.intercalate_cons_cons]
    exact (begins.append _).append _

theorem Begins.grouped {text : String} (begins : Begins text) (opens : Bool) :
    Begins (grouped opens text) := by
  cases opens with
  | false => exact begins
  | true => exact ⟨'(', _, by simp [Pattern.grouped, toString_text]; rfl, by decide⟩

theorem begins_integer (id : Int64) : Begins (toString id) := by
  rw [Number.Reader.toString_int64]
  split_ifs with negative
  · exact ⟨'-', _, by rw [String.toList_append]; rfl, by decide⟩
  · obtain ⟨first, rest, shape, digit, -⟩ :=
      Number.Reader.exists_toDigits_eq_cons id.toInt.natAbs
    refine ⟨first, rest, by rw [Number.Reader.toList_toString, shape], ?_⟩
    rintro rfl
    exact absurd digit (by decide)

theorem Regular.begins {pattern : Pattern} (regular : pattern.Regular) (capture inner : Bool) :
    Begins (pattern.textWithin capture inner) := by
  induction regular generalizing capture inner with
  | step => exact (begins_integer _).grouped _
  | @list span op items capturing several each silenced ih =>
    rw [textWithin, textsWithin_eq_map]
    refine Begins.grouped ?_ _
    split_ifs with parens
    · exact ⟨'(', _, by simp [toString_text]; rfl, by decide⟩
    · cases items with
      | nil => cases several
      | cons item items =>
        rw [List.map_cons]
        exact (ih item List.mem_cons_self capturing true).intercalate _ _
  | repetition regular ih =>
    rw [textWithin]
    exact ((ih _ _).grouped _).append _
  | @bracket span negating steps capturing nonempty =>
    rw [textWithin]
    refine Begins.grouped ?_ _
    cases negating with
    | false => exact ⟨'[', _, by simp [bracketText]; rfl, by decide⟩
    | true => exact ⟨'^', _, by simp [bracketText]; rfl, by decide⟩

theorem lexes_separator (op : ListOp) :
    Lexes lexeme anywhere op.separator.toList [separatorToken op] := by
  cases op with
  | sequence => exact lexes_mark (by decide) fun _ => rfl
  | alternatives =>
    have blank : Lexes lexeme anywhere [' '] [] := .space (by decide)
    have pipe : Lexes lexeme anywhere ['|'] [.pipe] := lexes_mark (by decide) fun _ => rfl
    exact blank.append (pipe.append blank fun _ _ => trivial) fun _ _ => trivial

theorem Regular.lexes {pattern : Pattern} (regular : pattern.Regular) (capture inner : Bool) :
    Lexes lexeme NoDigit (pattern.textWithin capture inner).toList
      (pattern.tokensWithin capture inner) := by
  induction regular generalizing capture inner with
  | step => exact lexes_grouped _ (lexes_integer _)
  | @list span op items capturing several each silenced ih =>
    rw [textWithin, tokensWithin, textsWithin_eq_map, tokensWithinAll_eq_map]
    have items' : List.Forall₂ (Lexes lexeme NoDigit)
        ((items.map (textWithin capturing true)).map String.toList)
        (items.map (tokensWithin capturing true)) := by
      rw [List.map_map, List.forall₂_map_left_iff, List.forall₂_map_right_iff, List.forall₂_same]
      exact fun item found => ih item found capturing true
    have list := Lexes.intercalate (lexes_separator op) (fun rest c found => by
      cases op <;> cases found <;> decide) items'
    rw [← String.toList_intercalate] at list
    refine lexes_grouped _ ?_
    split_ifs with parens
    · have closed := list.append (G := NoDigit) (lexes_closeParen.imp fun _ _ => trivial) <| by
        rintro rest - c ⟨⟩
        decide
      have begins : Begins (op.separator.intercalate (items.map (textWithin capturing true))) := by
        cases items with
        | nil => cases several
        | cons item items =>
          rw [List.map_cons]
          exact ((each item List.mem_cons_self).begins capturing true).intercalate _ _
      obtain ⟨first, others, shape, other⟩ := begins
      have whole := lexes_openParen.append closed fun rest _ c found => by
        rw [shape] at found
        cases found
        exact other
      simpa [toString_text] using whole
    · exact list
  | @repetition span least most child regular ih =>
    rw [textWithin, tokensWithin, String.toList_append]
    refine (lexes_grouped _ (ih _ _)).append ((lexes_quantifier least most).imp fun _ _ => trivial) ?_
    exact fun rest _ => noDigit_quantifier least most rest
  | bracket nonempty => exact lexes_grouped _ ((lexes_bracket _ _).imp fun _ _ => trivial)

/-! ### Nesting -/

section Nesting

open Text (Nests)

theorem nests_integer (id : Int64) : Nests (toString id).toList 0 := by
  apply Nests.plain
  rw [Number.Reader.toString_int64]
  split_ifs
  · rw [String.toList_append, List.all_append, Number.Reader.isPlain_toString]
    rfl
  · exact Number.Reader.isPlain_toString _

theorem nests_quantifier (least : Int64) (most : Option Int64) :
    Nests (quantifierText least most).toList 0 := by
  have mark (text : String) (flat : text.toList.all Text.isPlain = true) :
      Nests text.toList 0 := .plain flat
  unfold quantifierText
  cases most with
  | none =>
    dsimp only
    split_ifs
    · exact mark _ (by decide)
    · exact mark _ (by decide)
    · have opens := mark "\x7b" (by decide)
      have closes := mark ",*\x7d" (by decide)
      simpa [toString_text] using opens.append ((nests_integer least).append closes)
  | some most =>
    have opens := mark "\x7b" (by decide)
    have comma := mark "," (by decide)
    have closes := mark "\x7d" (by decide)
    dsimp only
    split_ifs
    · exact mark _ (by decide)
    · simpa [toString_text] using opens.append ((nests_integer least).append closes)
    · simpa [toString_text] using
        opens.append ((nests_integer least).append (comma.append ((nests_integer most).append closes)))

theorem nests_grouped {text : String} {height : Nat} (opens : Bool)
    (inner : Nests text.toList height) :
    Nests (grouped opens text).toList (height + opens.toNat) := by
  cases opens with
  | false => exact inner
  | true =>
    have silent : Nests ['?', ':'] 0 := .plain (by decide)
    simpa [grouped, toString_text] using (silent.append inner).paren

theorem nests_bracket (negating : Bool) (steps : List Int64) :
    Nests (bracketText negating steps).toList 0 := by
  have blank : Nests " ".toList 0 := .char (by decide)
  have opens : Nests ['['] 0 := .char (by decide)
  have closes : Nests [']'] 0 := .char (by decide)
  have caret : Nests (if negating then "^" else "").toList 0 := by
    cases negating with
    | false => exact .nil
    | true => exact .char (by decide)
  have each : List.Forall₂ Nests ((steps.map toString).map String.toList)
      (List.replicate steps.length 0) := by
    rw [← List.map_const']
    rw [List.map_map, List.forall₂_map_left_iff, List.forall₂_map_right_iff, List.forall₂_same]
    exact fun id _ => nests_integer id
  have flat : (List.replicate steps.length 0).foldr max 0 = 0 := by
    induction steps.length with
    | zero => rfl
    | succ count ih => simpa [List.replicate_succ] using ih
  have whole := caret.append (opens.append ((Nests.intercalate blank each).append closes))
  simpa [bracketText, String.toList_intercalate, flat] using whole

theorem Regular.nests {pattern : Pattern} (regular : pattern.Regular) (capture inner : Bool) :
    Nests (pattern.textWithin capture inner).toList (pattern.heightWithin capture inner) := by
  induction regular generalizing capture inner with
  | step =>
    rw [heightWithin, ← Nat.zero_add (Bool.toNat _)]
    exact nests_grouped _ (nests_integer _)
  | @list span op items capturing several each silenced ih =>
    rw [textWithin, heightWithin, textsWithin_eq_map, heightsWithin_eq_map]
    have separator : Nests op.separator.toList 0 := by cases op <;> exact .plain (by decide)
    have items' : List.Forall₂ Nests ((items.map (textWithin capturing true)).map String.toList)
        (items.map (heightWithin capturing true)) := by
      rw [List.map_map, List.forall₂_map_left_iff, List.forall₂_map_right_iff, List.forall₂_same]
      exact fun item found => ih item found capturing true
    have list := Nests.intercalate separator items'
    rw [← String.toList_intercalate] at list
    cases opens : capture && !capturing with
    | true => simpa using nests_grouped true list
    | false =>
      cases inner with
      | false => simpa using nests_grouped false list
      | true => simpa [grouped, toString_text] using list.paren
  | @repetition span least most child regular ih =>
    rw [textWithin, heightWithin, String.toList_append]
    simpa using (nests_grouped _ (ih _ _)).append (nests_quantifier least most)
  | bracket nonempty =>
    rw [heightWithin, ← Nat.zero_add (Bool.toNat _)]
    exact nests_grouped _ (nests_bracket _ _)

end Nesting

end EventQuery.Pattern
