import EventQuery.Proofs.PatternPhrases
import EventQuery.Proofs.PatternTokens

/-!
The text of a pattern reads back. Inside a group that does not capture, the reader marks
nodes as silent only when the group closes; `Reread` says what it has of a node before
that. An item reads back in front of whatever its quantifiers may belong to, so that a
repetition of a repetition is no case of its own.
-/
namespace EventQuery.Reading.PatternReader

open Pattern (integerTokens boundsTokens bracedTokens quantifierTokens groupedTokens bracketTokens
  separatorToken Regular)

variable {α : Type} {rest after : List PatternToken} {good : Pattern → Prop}

/-! ### Canonical phrases -/

namespace Numeral

/-- A number as it is written in canonical text. -/
def ofInt (id : Int64) : Numeral := ⟨id.toInt < 0, toString id.toInt.natAbs⟩

theorem tokens_ofInt (id : Int64) : (ofInt id).tokens = integerTokens id := by
  simp [tokens, ofInt, integerTokens]

theorem value?_ofInt (id : Int64) : (ofInt id).value? = some id := by
  have read := Number.Reader.integer?_magnitude id.toInt
  simp only [value?, ofInt, decide_eq_true_eq, read, Option.bind_some, Number.Width.int64?_toInt]

theorem fits_ofInt (id : Int64) : (ofInt id).Fits := by rw [Fits, value?_ofInt, Option.isSome_some]

theorem value_ofInt (id : Int64) : (ofInt id).value = id := by
  rw [value, value?_ofInt, Option.getD_some]

end Numeral

namespace Quantifier

/-- Bounds as they are written in canonical text. -/
def ofBounds (least : Int64) (most : Option Int64) : Quantifier :=
  match most with
  | none => if least = 0 then star else if least = 1 then plus else atLeast (.ofInt least)
  | some most =>
    if least = 0 ∧ most = 1 then question
    else if least = most then exactly (.ofInt least)
    else between (.ofInt least) (.ofInt most)

theorem ofBounds_spec (least : Int64) (most : Option Int64) :
    (ofBounds least most).tokens = quantifierTokens least most ∧ (ofBounds least most).Fits ∧
      (ofBounds least most).bounds = (least, most) := by
  unfold ofBounds quantifierTokens
  cases most with
  | none =>
    dsimp only
    split_ifs <;> simp_all [tokens, Fits, numerals, bounds, bracedTokens, boundsTokens,
      Numeral.tokens_ofInt, Numeral.fits_ofInt, Numeral.value_ofInt]
  | some most =>
    dsimp only
    split_ifs <;> simp_all [tokens, Fits, numerals, bounds, bracedTokens, boundsTokens,
      Numeral.tokens_ofInt, Numeral.fits_ofInt, Numeral.value_ofInt]

end Quantifier

theorem reads_number (id : Int64) : Reads number (integerTokens id ++ rest) rest (· = id) := by
  rw [← Numeral.tokens_ofInt]
  exact (parses_number.congr (iff_true_intro (Numeral.fits_ofInt id))).mono fun _ same =>
    same.trans (Numeral.value_ofInt id)

theorem reads_quantifier (least : Int64) (most : Option Int64) :
    Reads quantifier? (quantifierTokens least most ++ rest) rest (· = some (least, most)) := by
  obtain ⟨tokens, fits, bounds⟩ := Quantifier.ofBounds_spec least most
  rw [← tokens, ← bounds]
  exact parses_quantifier.congr (iff_true_intro fits)

theorem reads_bracket (first : Nat) (negating : Bool) {steps : List Int64} (nonempty : steps ≠ []) :
    Reads (bracket first) (bracketTokens negating steps ++ rest) rest
      fun value => ∃ span, value = .bracket span negating steps true := by
  obtain ⟨step, steps, rfl⟩ := List.exists_cons_of_ne_nil nonempty
  have numerals : (.ofInt step :: steps.map Numeral.ofInt).map Numeral.value = step :: steps := by
    simp [Function.comp_def, Numeral.value_ofInt]
  have fits : ∀ numeral ∈ .ofInt step :: steps.map Numeral.ofInt, numeral.Fits := by
    simp [Numeral.fits_ofInt]
  have shape : bracketPhrase negating (.ofInt step) (steps.map Numeral.ofInt) =
      bracketTokens negating (step :: steps) := by
    simp [bracketPhrase, bracketTokens, List.flatMap_def, Function.comp_def, Numeral.tokens_ofInt]
  rw [← shape, ← numerals]
  exact (parses_bracket first).congr (iff_true_intro fits)

/-! ### Items -/

/-- No quantifier starts here. -/
def NoQuantifier (rest : List PatternToken) : Prop :=
  ∀ token ∈ rest.head?, token ∉ [.star, .plus, .question, .openBrace]

theorem quantified_end {first rounds : Nat} {item : Pattern} (ends : NoQuantifier rest)
    (holds : good item) : Reads (quantified first rounds item) rest rest good := by
  cases rounds with
  | zero => exact .pure holds
  | succ rounds =>
    rw [quantified]
    refine .bind (P := (· = none)) (.peek ?_) fun _ absent => by
      subst absent
      exact .pure holds
    cases rest with
    | nil => exact .pure rfl
    | cons token rest =>
      have other := ends token rfl
      cases token <;> first | exact .pure rfl | exact absurd other (by decide)

theorem quantified_next {first rounds : Nat} {item : Pattern} {least : Int64} {most : Option Int64}
    (further : ∀ span,
      Reads (quantified first rounds (.repetition span least most item item.capturing))
        rest after good) :
    Reads (quantified first (rounds + 1) item) (quantifierTokens least most ++ rest) after good := by
  rw [quantified]
  refine .bind (reads_quantifier least most) ?_
  rintro _ rfl
  exact .spanFrom further

theorem quantifierTokens_ne_nil (least : Int64) (most : Option Int64) :
    quantifierTokens least most ≠ [] := by
  unfold quantifierTokens
  cases most <;> dsimp only <;> split_ifs <;> simp [bracedTokens]

/-- What was read of a node: the node itself, or one that the end of the group will silence. -/
def Reread (capture : Bool) (value node : Pattern) : Prop :=
  (if capture then value else value.silent).unspanned = node.unspanned

variable {levels : Nat} {capture : Bool} {node : Pattern} {tokens : List PatternToken}

/-- The tokens are read as the node, or as an item of it with the quantifiers that follow. -/
def ItemReads (levels : Nat) (tokens : List PatternToken) (capture : Bool)
    (node : Pattern) : Prop :=
  ∀ rest after good, (∀ first rounds value, rest.length ≤ rounds → Reread capture value node →
      Reads (quantified first rounds value) rest after good) →
    Reads (item (pattern levels)) (tokens ++ rest) after good

theorem itemReads_of_atom
    (atomic : ∀ rest, Reads (atom (pattern levels)) (tokens ++ rest) rest (Reread capture · node)) :
    ItemReads levels tokens capture node := by
  intro rest after good further
  refine .start fun first => .bind (atomic rest) fun value reread => .remaining ?_
  exact further first _ value (Nat.le_refl _) reread

theorem ItemReads.alone (reads : ItemReads levels tokens capture node) (ends : NoQuantifier rest) :
    Reads (item (pattern levels)) (tokens ++ rest) rest (Reread capture · node) :=
  reads rest rest _ fun _ _ _ _ reread => quantified_end ends reread

/-- A repetition is its child with a quantifier behind it. -/
theorem ItemReads.repetition {span : Span} {least : Int64} {most : Option Int64}
    (child : ItemReads levels tokens capture node) (known : capture = false → node.capturing = false) :
    ItemReads levels (tokens ++ quantifierTokens least most) capture
      (.repetition span least most node node.capturing) := by
  intro rest after good further
  rw [List.append_assoc]
  refine child _ _ _ fun first rounds value enough reread => ?_
  have positive := List.length_pos_iff.2 (quantifierTokens_ne_nil least most)
  rw [List.length_append] at enough
  obtain ⟨rounds, rfl⟩ := Nat.exists_eq_add_of_le' (show 1 ≤ rounds by omega)
  refine quantified_next fun span => further first rounds _ (by omega) ?_
  cases capture with
  | true =>
    have flag : value.capturing = node.capturing := by
      rw [← Pattern.capturing_unspanned value, ← Pattern.capturing_unspanned node]
      exact congrArg Pattern.capturing reread
    rw [flag]
    exact congrArg (fun child => Pattern.repetition .none least most child node.capturing) reread
  | false =>
    rw [known rfl]
    exact congrArg (fun child => Pattern.repetition .none least most child false) reread

/-! ### Lists -/

section Lists

variable {separator : PatternToken} {production : Production Pattern}
  {related : Pattern → Pattern → Prop} {write : Pattern → List PatternToken}
  {F : List PatternToken → Prop}

/-- Items behind the first one. `F` says what may follow an item. -/
theorem reads_itemsRest {items : List Pattern}
    (each : ∀ item ∈ items, ∀ rest, F rest →
      Reads production (write item ++ rest) rest (related · item))
    (between : ∀ rest, F (separator :: rest)) (ends : F rest)
    (stops : rest.head? ≠ some separator) {rounds : Nat} (enough : items.length ≤ rounds) :
    Reads (itemsRest separator production rounds)
      (items.flatMap (fun item => separator :: write item) ++ rest) rest
      (fun values => List.Forall₂ related values items) := by
  induction items generalizing rounds with
  | nil =>
    cases rounds with
    | zero => exact .pure .nil
    | succ rounds => exact .skip_other stops (.pure .nil)
  | cons item items ih =>
    obtain ⟨first, others⟩ := List.forall_mem_cons.1 each
    cases rounds with
    | zero => cases enough
    | succ rounds =>
      rw [List.flatMap_cons, List.cons_append, List.cons_append, List.append_assoc, itemsRest]
      have follows : F (items.flatMap (fun item => separator :: write item) ++ rest) := by
        cases items with
        | nil => exact ends
        | cons next items => exact between _
      refine .skip (.bind (first _ follows) fun value isFirst => ?_)
      refine .bind (ih others (Nat.le_of_succ_le_succ enough)) fun values areOthers => ?_
      exact .pure (.cons isFirst areOthers)

/-- A single item stands alone. -/
theorem separated_single {op : ListOp} {before : List PatternToken}
    (item : Reads production before rest good) (stops : rest.head? ≠ some separator) :
    Reads (separated op separator production) before rest good := by
  refine .start fun first => .bind item fun value holds => .remaining ?_
  refine .bind (P := (· = [])) ?_ fun _ none => by
    subst none
    exact .pure holds
  cases rest.length with
  | zero => exact .pure rfl
  | succ rounds => exact .skip_other stops (.pure rfl)

/-- Several items are a list of the values that were read. -/
theorem separated_several {op : ListOp} {items : List Pattern} (several : 2 ≤ items.length)
    (each : ∀ item ∈ items, ∀ rest, F rest →
      Reads production (write item ++ rest) rest (related · item))
    (between : ∀ rest, F (separator :: rest)) (ends : F rest)
    (stops : rest.head? ≠ some separator) :
    Reads (separated op separator production) ([separator].intercalate (items.map write) ++ rest)
      rest (fun value => ∃ span values, value = .list span op values true ∧
        List.Forall₂ related values items) := by
  obtain ⟨head, second, others, rfl⟩ : ∃ head second others, items = head :: second :: others := by
    match items, several with
    | head :: second :: others, _ => exact ⟨head, second, others, rfl⟩
  obtain ⟨first, behind⟩ := List.forall_mem_cons.1 each
  rw [intercalate_map_cons, List.append_assoc]
  refine .start fun start => .bind (first _ (between _)) fun value isHead => .remaining ?_
  refine .bind (reads_itemsRest behind between ends stops ?_) fun values areOthers => ?_
  · rw [List.length_append]
    exact (length_le_flatMap ..).trans (Nat.le_add_right ..)
  · obtain _ | ⟨isSecond, areOthers⟩ := areOthers
    exact .spanFrom fun span => .pure ⟨span, _, rfl, .cons isHead (.cons isSecond areOthers)⟩

end Lists

/-! ### Atoms -/

/-- Neither an item nor a quantifier follows. -/
def Stops (rest : List PatternToken) : Prop :=
  ∀ token ∈ rest.head?, token ∉ [.star, .plus, .question, .openBrace, .colon, .pipe]

namespace Stops

theorem noQuantifier (stops : Stops rest) : NoQuantifier rest := fun token found isQuantifier =>
  stops token found (by simp at isQuantifier ⊢; tauto)

theorem head_ne (stops : Stops rest) {separator : PatternToken}
    (separates : separator ∈ [.colon, .pipe]) : rest.head? ≠ some separator := fun found =>
  stops separator found (by simp at separates ⊢; tauto)

theorem closeParen : Stops (.closeParen :: rest) := by
  rintro token ⟨⟩
  decide

end Stops

/-- The tokens of a pattern that stands alone are read as one, up to the end of the group. -/
def PatternReads (levels : Nat) (capture : Bool) (node : Pattern) : Prop :=
  ∀ rest, Stops rest → Reads (pattern (levels + 1))
    (node.tokensWithin capture false ++ rest) rest (Reread capture · node)

theorem patternReads_of_item
    (item : ItemReads levels (node.tokensWithin capture false) capture node) :
    PatternReads levels capture node := by
  intro rest stops
  have alone := item.alone stops.noQuantifier
  exact separated_single (separated_single alone (stops.head_ne (by simp))) (stops.head_ne (by simp))

theorem reads_atom_group (inner : PatternReads levels false node) :
    Reads (atom (pattern (levels + 1)))
      (groupedTokens true (node.tokensWithin false false) ++ rest) rest (Reread true · node) := by
  rw [groupedTokens, if_pos rfl, List.cons_append, List.append_assoc]
  refine .start fun first => .peek (.advance (.bind (inner _ .closeParen) fun value reread => ?_))
  exact parses_expect (.pure reread)

theorem reads_atom_paren (inner : PatternReads levels capture node) :
    Reads (atom (pattern (levels + 1)))
      (.openParen :: (node.tokensWithin capture false ++ [.closeParen]) ++ rest) rest
      (Reread capture · node) := by
  rw [List.cons_append, List.append_assoc]
  refine .start fun first => .peek (.advance (.bind (inner _ .closeParen) fun value reread => ?_))
  exact parses_expect (.pure reread)

/-- A capturing step or a silent one in a group that is silent already. -/
theorem reads_atom_step {span : Span} {id : Int64} :
    Reads (atom (pattern levels)) (integerTokens id ++ rest) rest
      (Reread capture · (.step span id capture)) := by
  have head : (integerTokens id ++ rest).head? = some .minus ∨
      ∃ text, (integerTokens id ++ rest).head? = some (.number text) := by
    unfold integerTokens
    split_ifs <;> simp
  refine .start fun first => .peek ?_
  rcases head with head | ⟨text, head⟩ <;> rw [head]
  all_goals
    refine .bind (reads_number id) ?_
    rintro _ rfl
    refine .spanFrom fun span => .pure ?_
    cases capture <;> rfl

theorem reads_atom_bracket {span : Span} {negating : Bool} {steps : List Int64}
    (nonempty : steps ≠ []) :
    Reads (atom (pattern levels)) (bracketTokens negating steps ++ rest) rest
      (Reread capture · (.bracket span negating steps capture)) := by
  have reread (first : Nat) : Reads (bracket first) (bracketTokens negating steps ++ rest) rest
      (Reread capture · (.bracket span negating steps capture)) := by
    refine (reads_bracket first negating nonempty).mono ?_
    rintro _ ⟨span, rfl⟩
    cases capture <;> rfl
  refine .start fun first => .peek ?_
  cases negating with
  | false => exact reread first
  | true => exact reread first

/-! ### Whole patterns -/

/-- Enough levels read the node back, inside another one and alone. -/
def ReadsBack (node : Pattern) : Prop :=
  ∀ capture levels, (capture = false → node.capturing = false) →
    (node.heightWithin capture true ≤ levels →
      ItemReads levels (node.tokensWithin capture true) capture node) ∧
    (node.heightWithin capture false ≤ levels → PatternReads levels capture node)

/-- If a node stands in a group of its own wherever capture stops, it is enough to read it
where no group opens. -/
theorem readsBack_of_shut
    (group : node.capturing = false → ∀ inner,
      node.tokensWithin true inner = groupedTokens true (node.tokensWithin false false) ∧
      node.heightWithin true inner = node.heightWithin false false + 1)
    (shut : ∀ levels,
      (node.heightWithin node.capturing true ≤ levels →
        ItemReads levels (node.tokensWithin node.capturing true) node.capturing node) ∧
      (node.heightWithin node.capturing false ≤ levels → PatternReads levels node.capturing node)) :
    ReadsBack node := by
  intro capture levels known
  by_cases same : node.capturing = capture
  · exact same ▸ shut levels
  · have silent : node.capturing = false := by cases capture <;> simp_all
    obtain rfl : capture = true := by cases capture <;> simp_all
    have inGroup (inner : Bool) (enough : node.heightWithin true inner ≤ levels) :
        ItemReads levels (node.tokensWithin true inner) true node := by
      rw [(group silent inner).2] at enough
      obtain ⟨levels, rfl⟩ := Nat.exists_eq_add_of_le' (Nat.one_le_of_lt enough)
      rw [(group silent inner).1]
      have alone := (shut levels).2
      rw [silent] at alone
      exact itemReads_of_atom fun rest => reads_atom_group (alone (Nat.le_of_succ_le_succ enough))
    exact ⟨inGroup true, fun enough => patternReads_of_item (inGroup false enough)⟩

theorem le_foldr_max {heights : List Nat} {height : Nat} (found : height ∈ heights) :
    height ≤ heights.foldr max 0 := by
  induction heights with
  | nil => cases found
  | cons first rest ih =>
    rcases List.mem_cons.1 found with rfl | found
    · exact Nat.le_max_left ..
    · exact (ih found).trans (Nat.le_max_right ..)

/-- The list of what was read is what was read of the list. -/
theorem reread_list {span span' : Span} {op : ListOp} {values items : List Pattern}
    (each : List.Forall₂ (Reread capture) values items) :
    Reread capture (.list span op values true) (.list span' op items capture) := by
  cases capture with
  | true =>
    have same : values.map Pattern.unspanned = items.map Pattern.unspanned := by
      rw [← List.forall₂_eq_eq_eq, List.forall₂_map_left_iff, List.forall₂_map_right_iff]
      exact each
    simp [Reread, Pattern.unspanned, Pattern.unspannedAll_eq_map, same]
  | false =>
    have same : values.map (Pattern.unspanned ∘ Pattern.silent) = items.map Pattern.unspanned := by
      rw [← List.forall₂_eq_eq_eq, List.forall₂_map_left_iff, List.forall₂_map_right_iff]
      exact each
    simp [Reread, Pattern.silent, Pattern.silentAll_eq_map, Pattern.unspanned,
      Pattern.unspannedAll_eq_map, same]

/-- Items that are read inside a list make the list. -/
theorem patternReads_list {span : Span} {op : ListOp} {items : List Pattern}
    (several : 2 ≤ items.length)
    (each : ∀ item ∈ items, ItemReads levels (item.tokensWithin capture true) capture item) :
    PatternReads levels capture (.list span op items capture) := by
  intro rest stops
  have shape : Pattern.tokensWithin capture false (.list span op items capture) =
      [separatorToken op].intercalate (items.map (Pattern.tokensWithin capture true)) := by
    simp [Pattern.tokensWithin, Pattern.tokensWithinAll_eq_map, groupedTokens]
  rw [shape]
  cases op with
  | sequence =>
    refine separated_single ?_ (stops.head_ne (by simp))
    refine (separated_several several (fun item found rest ends => (each item found).alone ends) ?_
      stops.noQuantifier (stops.head_ne (by simp))).mono ?_
    · rintro rest token ⟨⟩
      decide
    · rintro _ ⟨span, values, rfl, values'⟩
      exact reread_list values'
  | alternatives =>
    refine (separated_several several
      (F := fun rest => NoQuantifier rest ∧ rest.head? ≠ some .colon)
      (fun item found rest ends => separated_single ((each item found).alone ends.1) ends.2) ?_
      ⟨stops.noQuantifier, stops.head_ne (by simp)⟩ (stops.head_ne (by simp))).mono ?_
    · refine fun rest => ⟨?_, by simp⟩
      rintro token ⟨⟩
      decide
    · rintro _ ⟨span, values, rfl, values'⟩
      exact reread_list values'

/-- The text of a pattern reads back wherever the pattern may stand. -/
theorem readsBack_of_regular (regular : Regular node) : ReadsBack node := by
  induction regular with
  | @step span id capturing =>
    have item (levels : Nat) :
        ItemReads levels (integerTokens id) capturing (.step span id capturing) :=
      itemReads_of_atom fun rest => reads_atom_step
    refine readsBack_of_shut ?_ fun levels => ?_
    · rintro ⟨⟩ inner
      exact ⟨rfl, rfl⟩
    · have shape (inner : Bool) :
          Pattern.tokensWithin capturing inner (.step span id capturing) = integerTokens id := by
        simp [Pattern.tokensWithin, groupedTokens]
      refine ⟨fun _ => ?_, fun _ => patternReads_of_item ?_⟩
      · exact (shape true).symm ▸ item levels
      · exact (shape false).symm ▸ item levels
  | @list span op items capturing several each silenced ih =>
    refine readsBack_of_shut ?_ fun levels => ?_
    · rintro ⟨⟩ inner
      simp [Pattern.tokensWithin, Pattern.heightWithin, groupedTokens]
    · have height (inner : Bool) :
          Pattern.heightWithin capturing inner (.list span op items capturing) =
            (items.map (Pattern.heightWithin capturing true)).foldr max 0 + inner.toNat := by
        simp [Pattern.heightWithin, Pattern.heightsWithin_eq_map]
      have paren : Pattern.tokensWithin capturing true (.list span op items capturing) =
          .openParen :: (Pattern.tokensWithin capturing false (.list span op items capturing) ++
            [.closeParen]) := by
        simp [Pattern.tokensWithin, groupedTokens]
      have alone {levels : Nat}
          (enough : (items.map (Pattern.heightWithin capturing true)).foldr max 0 ≤ levels) :
          PatternReads levels capturing (.list span op items capturing) :=
        patternReads_list several fun item found =>
          (ih item found capturing levels (silenced · item found)).1
            ((le_foldr_max (List.mem_map_of_mem found)).trans enough)
      simp only [Pattern.capturing, height]
      refine ⟨fun enough => ?_, alone⟩
      obtain ⟨levels, rfl⟩ := Nat.exists_eq_add_of_le' (Nat.le_of_add_left_le enough)
      rw [paren]
      exact itemReads_of_atom fun rest => reads_atom_paren (alone (Nat.le_of_succ_le_succ enough))
  | @repetition span least most child regular ih =>
    -- The group that opens here is the one that its child stands alone in.
    intro capture levels (known : capture = false → child.capturing = false)
    have item (inner : Bool) (enough : Pattern.heightWithin capture inner
          (.repetition span least most child child.capturing) ≤ levels) :
        ItemReads levels (Pattern.tokensWithin capture inner
          (.repetition span least most child child.capturing)) capture
          (.repetition span least most child child.capturing) := by
      rw [Pattern.heightWithin] at enough
      rw [Pattern.tokensWithin]
      by_cases opens : capture = true ∧ child.capturing = false
      · obtain ⟨rfl, silent⟩ := opens
        simp only [silent, Bool.not_false, Bool.and_self, Bool.not_true] at enough ⊢
        obtain ⟨levels, rfl⟩ := Nat.exists_eq_add_of_le' (Nat.le_of_add_left_le enough)
        have alone := (ih false levels fun _ => silent).2 (Nat.le_of_succ_le_succ enough)
        exact silent ▸ (itemReads_of_atom fun rest => reads_atom_group alone).repetition fun _ => silent
      · obtain rfl : child.capturing = capture := by cases capture <;> simp_all
        simp only [Bool.and_not_self, Bool.not_false, Bool.and_true, Bool.toNat_false] at enough ⊢
        exact ((ih child.capturing levels known).1 enough).repetition known
    exact ⟨item true, fun enough => patternReads_of_item (item false enough)⟩
  | @bracket span negating steps capturing nonempty =>
    have item (levels : Nat) :
        ItemReads levels (bracketTokens negating steps) capturing
          (.bracket span negating steps capturing) :=
      itemReads_of_atom fun rest => reads_atom_bracket nonempty
    refine readsBack_of_shut ?_ fun levels => ?_
    · rintro ⟨⟩ inner
      exact ⟨rfl, rfl⟩
    · have shape (inner : Bool) :
          Pattern.tokensWithin capturing inner (.bracket span negating steps capturing) =
            bracketTokens negating steps := by
        simp [Pattern.tokensWithin, groupedTokens]
      refine ⟨fun _ => ?_, fun _ => patternReads_of_item ?_⟩
      · exact (shape true).symm ▸ item levels
      · exact (shape false).symm ▸ item levels

/-! ### What the reader returns -/

/-- Every success of the production meets the condition. -/
abbrev Returns (production : Production α) (P : α → Prop) : Prop :=
  Gives (fun _ => True) production P

theorem returns_unexpected {expected : String} {P : α → Prop} :
    Returns (unexpected expected : Production α) P :=
  .bind .anything fun _ _ => .bind .anything fun _ _ => .fail

theorem returns_quantified {first rounds : Nat} {item : Pattern} (regular : Regular item) :
    Returns (quantified first rounds item) Regular := by
  induction rounds generalizing item with
  | zero => exact .pure regular
  | succ rounds ih =>
    refine .bind .anything fun bounds _ => ?_
    split
    · exact .pure regular
    · exact .bind .anything fun span _ => ih (.repetition regular)

theorem returns_bracket {first : Nat} : Returns (bracket first) Regular := by
  refine .bind .anything fun _ _ => .bind .anything fun _ _ => .bind .anything fun _ _ => ?_
  refine .bind .anything fun _ _ => .bind .anything fun _ _ => .bind .anything fun _ _ => ?_
  exact .pure (.bracket (List.cons_ne_nil _ _))

theorem returns_atom {deeper : Production Pattern} (inner : Returns deeper Regular) :
    Returns (atom deeper) Regular := by
  refine .bind .anything fun first _ => .bind .anything fun found _ => ?_
  split
  · refine .bind .anything fun _ _ => .bind inner fun value regular => ?_
    exact .bind .anything fun _ _ => .pure regular.silent
  · refine .bind .anything fun _ _ => .bind inner fun value regular => ?_
    exact .bind .anything fun _ _ => .pure regular
  · exact returns_bracket
  · exact returns_bracket
  · exact .bind .anything fun _ _ => .bind .anything fun _ _ => .pure .step
  · exact .bind .anything fun _ _ => .bind .anything fun _ _ => .pure .step
  · exact returns_unexpected

theorem returns_item {deeper : Production Pattern} (inner : Returns deeper Regular) :
    Returns (item deeper) Regular :=
  .bind .anything fun _ _ => .bind (returns_atom inner) fun _ regular =>
    .bind .anything fun _ _ => returns_quantified regular

theorem returns_itemsRest {separator : PatternToken} {production : Production Pattern}
    (item : Returns production Regular) {rounds : Nat} :
    Returns (itemsRest separator production rounds) fun items => ∀ item ∈ items, Regular item := by
  induction rounds with
  | zero => exact .pure (List.forall_mem_nil _)
  | succ rounds ih =>
    refine .bind .anything fun _ _ => ?_
    split
    · refine .bind item fun value regular => .bind ih fun values others => ?_
      exact .pure (List.forall_mem_cons.2 ⟨regular, others⟩)
    · exact .pure (List.forall_mem_nil _)

theorem returns_separated {op : ListOp} {separator : PatternToken} {production : Production Pattern}
    (item : Returns production Regular) : Returns (separated op separator production) Regular := by
  refine .bind .anything fun _ _ => .bind item fun head regular => .bind .anything fun _ _ => ?_
  refine .bind (returns_itemsRest item) fun values others => ?_
  split
  · exact .pure regular
  · rename_i several
    refine .bind .anything fun _ _ => .pure (.list ?_ ?_ fun captures => absurd captures (by decide))
    · exact Nat.succ_le_succ (List.length_pos_iff.2 several)
    · exact List.forall_mem_cons.2 ⟨regular, others⟩

theorem returns_pattern (levels : Nat) : Returns (pattern levels) Regular := by
  induction levels with
  | zero => exact .tooDeep
  | succ levels ih => exact returns_separated (returns_separated (returns_item ih))

theorem returns_whole : Returns whole Regular := by
  refine .bind (returns_pattern nestingLimit) fun value regular => .bind .anything fun _ _ => ?_
  split
  · exact returns_unexpected
  · exact .pure regular

end EventQuery.Reading.PatternReader

namespace EventQuery

open Reading

/-- A regular pattern whose text is nested less deep than the reader allows reads back from
it, up to spans; and the reader returns regular patterns only. -/
theorem readPattern_text :
    (∀ pattern : Pattern, pattern.Regular → Text.nesting pattern.text < nestingLimit →
      ∃ value, readPattern pattern.text = .ok value ∧ value.unspanned = pattern.unspanned) ∧
    ∀ text value, readPattern text = .ok value → value.Regular := by
  constructor
  · intro pattern regular shallow
    have height := (regular.nests true false).nesting_eq
    have enough : pattern.heightWithin true false ≤ 255 := height ▸ Nat.le_of_lt_succ shallow
    have stops : PatternReader.Stops [] := by
      rintro token ⟨⟩
    have reads : Reads PatternReader.whole (pattern.tokensWithin true false) []
        (PatternReader.Reread true · pattern) := by
      have alone := (PatternReader.readsBack_of_regular regular true 255 (by simp)).2 enough [] stops
      rw [List.append_nil] at alone
      exact .bind alone fun value reread => .peek (.pure reread)
    obtain ⟨placed, scans, same⟩ := (regular.lexes true false).scan (by rintro c ⟨⟩) fun piece =>
      "unexpected character " ++ Text.Printable.quoted piece ++ " in pattern"
    obtain ⟨value, runs, reread⟩ := (reads.run same).1 trivial
    exact ⟨value, Outcome.bind_eq_ok.2 ⟨placed, scans, runs⟩, reread⟩
  · intro text value succeeds
    obtain ⟨placed, -, runs⟩ := Outcome.bind_eq_ok.1 succeeds
    exact PatternReader.returns_whole.run (fun _ _ => trivial) runs

/-- A step, and behind it a silent group that opens for a repetition. -/
theorem readPattern_text_group :
    let pattern : Pattern := .ofList .sequence [.ofStep 1,
      .repetition .none 2 none (.list .none .alternatives [.step .none (-2) false,
        .bracket .none true [3, 4] false] false) false]
    pattern.text = "1:(?:-2 | ^[3 4])\x7b2,*\x7d" ∧ Text.nesting pattern.text < nestingLimit ∧
      ∃ value, readPattern pattern.text = .ok value ∧ value.unspanned = pattern.unspanned ∧
        value.Regular := by
  intro pattern
  have text : pattern.text = "1:(?:-2 | ^[3 4])\x7b2,*\x7d" := by decide +kernel
  have shallow : Text.nesting pattern.text < nestingLimit := by
    rw [text]
    decide +kernel
  have inner : Pattern.Regular (.list .none .alternatives
      [.step .none (-2) false, .bracket .none true [3, 4] false] false) := by
    refine .list (by decide) ?_ fun _ => ?_ <;> simp only [List.forall_mem_cons]
    · exact ⟨.step, .bracket (by decide), List.forall_mem_nil _⟩
    · exact ⟨rfl, rfl, List.forall_mem_nil _⟩
  have regular : pattern.Regular := by
    refine .list (by decide) ?_ fun captures => absurd captures (by decide)
    simp only [List.forall_mem_cons]
    exact ⟨.step, .repetition inner, List.forall_mem_nil _⟩
  obtain ⟨value, succeeds, same⟩ := readPattern_text.1 pattern regular shallow
  exact ⟨text, shallow, value, succeeds, same, readPattern_text.2 _ _ succeeds⟩

end EventQuery
