import EventQuery.Json.Printer
import EventQuery.Json.Reader
import EventQuery.Proofs.Numerals
import EventQuery.Proofs.Scanning
import Mathlib.Data.List.DropRight

/-!
Pretty text of JSON values. A value without floating-point numbers that nests no deeper
than the reader allows reads back from its text.
-/
namespace EventQuery.Json

open Number.Reader (isDigit digitsValue digitsValue_toDigits all_isDigit_toDigits
  exists_toDigits_eq_cons toString_int toList_toString)
open Reading (takeWhile_append dropWhile_append toList_pushn)
open Outcome

/-! ### Values and their depth -/

mutual

/-- How many containers are nested inside each other. -/
def depth : Json → Nat
  | list items => depthOfItems items + 1
  | object members => depthOfMembers members + 1
  | _ => 0

def depthOfItems : List Json → Nat
  | [] => 0
  | item :: rest => max item.depth (depthOfItems rest)

def depthOfMembers : List (String × Json) → Nat
  | [] => 0
  | (_, value) :: rest => max value.depth (depthOfMembers rest)

end

private theorem depthOfItems_le {items : List Json} {limit : Nat} :
    depthOfItems items ≤ limit ↔ ∀ item ∈ items, item.depth ≤ limit := by
  induction items with
  | nil => simp [depthOfItems]
  | cons item rest ih => rw [depthOfItems, Nat.max_le, ih, List.forall_mem_cons]

private theorem depthOfMembers_le {members : List (String × Json)} {limit : Nat} :
    depthOfMembers members ≤ limit ↔ ∀ member ∈ members, member.2.depth ≤ limit := by
  induction members with
  | nil => simp [depthOfMembers]
  | cons member rest ih => rw [depthOfMembers, Nat.max_le, ih, List.forall_mem_cons]

theorem depth_list_le {items : List Json} {limit : Nat} :
    (list items).depth ≤ limit + 1 ↔ ∀ item ∈ items, item.depth ≤ limit := by
  rw [depth, Nat.add_le_add_iff_right, depthOfItems_le]

theorem depth_object_le {members : List (String × Json)} {limit : Nat} :
    (object members).depth ≤ limit + 1 ↔ ∀ member ∈ members, member.2.depth ≤ limit := by
  rw [depth, Nat.add_le_add_iff_right, depthOfMembers_le]

/-- There are no numbers but whole ones that fit a signed or unsigned word. -/
inductive Whole : Json → Prop where
  | null : Whole .null
  | boolean {value} : Whole (.boolean value)
  | integer {n : Int} (least : -0x8000000000000000 ≤ n) (most : n < 0x10000000000000000) :
    Whole (.integer n)
  | text {value} : Whole (.text value)
  | list {items} (each : ∀ item ∈ items, Whole item) : Whole (.list items)
  | object {members} (each : ∀ member ∈ members, Whole member.2) : Whole (.object members)

namespace Reader

variable {α : Type} {rest gap input after : List Char}

/-! ### Strings -/

private theorem hexUnit_control : ∀ code < 0x20,
    hexUnit code = ['0', '0', Nat.digitChar (code / 16), Nat.digitChar (code % 16)] := by
  decide

private theorem unit?_control : ∀ code < 0x20,
    unit? '0' '0' (Nat.digitChar (code / 16)) (Nat.digitChar (code % 16)) = some code := by
  decide

theorem characters_escape (c : Char) (rest : List Char) :
    characters (escape c ++ rest) = prepend c (characters rest) := by
  unfold escape
  split
  case h_8 =>
    split
    · rename_i control
      have low : isLowSurrogate c.toNat = false := by simp [isLowSurrogate]; omega
      have high : isHighSurrogate c.toNat = false := by simp [isHighSurrogate]; omega
      rw [hexUnit_control _ control]
      simp [characters, unit?_control _ control, low, high, Char.ofNat_toNat]
    · rename_i plain
      have unescaped : ¬(c = '\\' ∨ c.toNat < 0x20) := by simp_all
      rw [List.singleton_append, characters.eq_def]
      split <;> simp_all
  all_goals
    simp [characters, escaped?]

theorem characters_quoted (text rest : List Char) :
    characters (text.flatMap escape ++ '"' :: rest) = .ok (text, rest) := by
  induction text with
  | nil => simp [characters]
  | cons c text ih =>
    rw [List.flatMap_cons, List.append_assoc, characters_escape, ih]
    rfl

/-! ### Numbers -/

/-- A rest that does not go on with a number in front of it. -/
def Ends (rest : List Char) : Prop :=
  ∀ c ∈ rest.head?, isDigit c = false ∧ c ≠ '.' ∧ c ≠ 'e' ∧ c ≠ 'E'

theorem Ends.cons {c : Char} (stops : isDigit c = false ∧ c ≠ '.' ∧ c ≠ 'e' ∧ c ≠ 'E') :
    Ends (c :: rest) := by
  rintro _ ⟨⟩
  exact stops

/-- Zero is the only number whose digits start with zero. -/
theorem eq_zero_of_head?_toDigits {n : Nat} (zero : (Nat.toDigits 10 n).head? = some '0') :
    n = 0 := by
  induction n using Nat.strongRecOn with
  | ind n ih =>
    rw [Nat.toDigits_eq_if (by decide)] at zero
    split_ifs at zero with small
    · exact Nat.digitChar_eq_zero.1 (Option.some.inj zero)
    · rw [List.head?_append_of_ne_nil _ Nat.toDigits_ne_nil] at zero
      have := ih (n / 10) (by omega) zero
      omega

theorem lexFraction_ends (ends : Ends rest) : lexFraction rest = .ok (none, rest) := by
  unfold lexFraction
  split
  · exact absurd rfl (ends '.' rfl).2.1
  · rfl

theorem lexExponent_ends (ends : Ends rest) : lexExponent rest = .ok (none, rest) := by
  cases rest with
  | nil => rfl
  | cons c rest =>
    have shape := ends c rfl
    rw [lexExponent, if_neg (by simp [shape])]

/-- A number in front of a rest that does not go on with it. -/
theorem lexNumber_toDigits (negative : Bool) (n : Nat) (ends : Ends rest) :
    lexNumber ((if negative then ['-'] else []) ++ (Nat.toDigits 10 n ++ rest)) =
      .ok (⟨negative, Nat.toDigits 10 n, none, none⟩, rest) := by
  have digits := all_isDigit_toDigits n
  have stops : ∀ c ∈ rest.head?, isDigit c = false := fun c found => (ends c found).1
  have noZero : ¬(Nat.toDigits 10 n = [] ∨
      (Nat.toDigits 10 n).head? = some '0' ∧ (Nat.toDigits 10 n).length ≠ 1) := by
    rintro (empty | ⟨zero, long⟩)
    · exact Nat.toDigits_ne_nil empty
    · rw [eq_zero_of_head?_toDigits zero] at long
      exact long rfl
  have unsigned : ∀ more, Nat.toDigits 10 n ++ rest ≠ '-' :: more := by
    obtain ⟨first, others, shape, digit, -⟩ := exists_toDigits_eq_cons n
    rw [shape]
    rintro more ⟨⟩
    cases digit
  unfold lexNumber
  cases negative with
  | true =>
    simp only [if_true, List.singleton_append]
    rw [takeWhile_append digits stops, dropWhile_append digits stops, if_neg noZero]
    simp [lexFraction_ends ends, lexExponent_ends ends]
  | false =>
    simp only [Bool.false_eq_true, if_false, List.nil_append]
    rw [takeWhile_append digits stops, dropWhile_append digits stops, if_neg noZero]
    simp [lexFraction_ends ends, lexExponent_ends ends]

/-- An integer that fits a signed or an unsigned word is read from its sign and its digits. -/
theorem value_lexeme {n : Int} (least : -0x8000000000000000 ≤ n) (most : n < 0x10000000000000000) :
    Lexeme.value ⟨n < 0, Nat.toDigits 10 n.natAbs, none, none⟩ = .ok (.integer n) := by
  have fits : if n < 0 then 0 < n.natAbs ∧ n.natAbs ≤ 0x8000000000000000
      else n.natAbs < 0x10000000000000000 := by
    split <;> omega
  have signed : (if n < 0 then -(n.natAbs : Int) else n.natAbs) = n := by
    split <;> omega
  unfold Lexeme.value
  simp only [digitsValue_toDigits, decide_eq_true_eq, Option.isNone_none, true_and]
  rw [if_pos fits, signed]
  rfl

/-! ### White space -/

theorem skipSpace_append (blank : gap.all isSpace = true) :
    skipSpace (gap ++ input) = skipSpace input :=
  List.dropWhile_append_of_pos (List.all_eq_true.1 blank)

theorem skipSpace_cons {c : Char} (visible : isSpace c = false) :
    skipSpace (c :: rest) = c :: rest :=
  List.dropWhile_cons_of_neg (by simp [visible])

theorem value_skipSpace (limit : Nat) (input : List Char) :
    value limit (skipSpace input) = value limit input := by
  have again : skipSpace (skipSpace input) = skipSpace input := List.dropWhile_idempotent ..
  cases limit <;> simp only [value, valueWith, again]

theorem value_append (limit : Nat) (blank : gap.all isSpace = true) :
    value limit (gap ++ input) = value limit input := by
  rw [← value_skipSpace, skipSpace_append blank, value_skipSpace]

/-- White space ends a number, and without any the rest behind it has to. -/
theorem Ends.append (blank : gap.all isSpace = true) (ends : Ends rest) : Ends (gap ++ rest) := by
  cases gap with
  | nil => exact ends
  | cons c gap =>
    simp only [List.all_cons, Bool.and_eq_true, isSpace, Bool.or_eq_true, beq_iff_eq] at blank
    refine Ends.cons ?_
    rcases blank.1 with ((rfl | rfl) | rfl) | rfl <;> decide

theorem lineBreak_blank (level : Nat) : (lineBreak level).toList.all isSpace = true := by
  simp [lineBreak, toList_pushn, isSpace]

/-! ### Containers -/

/-- In front of a rest that ends it, the text is read as the value and no more. -/
def Reads (read : List Char → Except Fault (α × List Char)) (text : List Char) (value : α) : Prop :=
  ∀ rest, Ends rest → read (text ++ rest) = .ok (value, rest)

/-- Values behind commas, up to the white space and the bracket behind them. -/
def tailText (write : α → List Char) (values : List α) (gap : List Char) (close : Char)
    (rest : List Char) : List Char :=
  values.flatMap (fun value => ',' :: write value) ++ (gap ++ close :: rest)

theorem tailText_ends {write : α → List Char} {values : List α} {close : Char}
    (blank : gap.all isSpace = true)
    (stops : isDigit close = false ∧ close ≠ '.' ∧ close ≠ 'e' ∧ close ≠ 'E') :
    Ends (tailText write values gap close rest) := by
  cases values with
  | nil =>
    rw [tailText, List.flatMap_nil, List.nil_append]
    exact (Ends.cons stops).append blank
  | cons value values => exact Ends.cons (by decide)

variable {item : Item}

theorem itemsAfter_tailText {write : Json → List Char} {values : List Json}
    (blank : gap.all isSpace = true) (each : ∀ value ∈ values, Reads item (write value) value) :
    itemsAfter item (tailText write values gap ']' rest) = .ok (values, rest) := by
  induction values with
  | nil =>
    rw [tailText, List.flatMap_nil, List.nil_append, itemsAfter, skipSpace_append blank,
      skipSpace_cons (by decide)]
    rfl
  | cons value values ih =>
    obtain ⟨first, others⟩ := List.forall_mem_cons.1 each
    have text : tailText write (value :: values) gap ']' rest =
        ',' :: (write value ++ tailText write values gap ']' rest) := by
      simp [tailText]
    have ends : Ends (tailText write values gap ']' rest) := tailText_ends blank (by decide)
    have shorter : (tailText write values gap ']' rest).length <
        (',' :: (write value ++ tailText write values gap ']' rest)).length := by
      rw [List.length_cons, List.length_append]
      omega
    rw [text, itemsAfter, skipSpace_cons (by decide)]
    simp only [first _ ends, if_pos shorter, ih others]
    rfl

theorem membersAfter_tailText {write : String × Json → List Char}
    {values : List (String × Json)} (blank : gap.all isSpace = true)
    (each : ∀ value ∈ values, Reads (member item) (write value) value) :
    membersAfter item (tailText write values gap '}' rest) = .ok (values, rest) := by
  induction values with
  | nil =>
    rw [tailText, List.flatMap_nil, List.nil_append, membersAfter, skipSpace_append blank,
      skipSpace_cons (by decide)]
    rfl
  | cons value values ih =>
    obtain ⟨first, others⟩ := List.forall_mem_cons.1 each
    have text : tailText write (value :: values) gap '}' rest =
        ',' :: (write value ++ tailText write values gap '}' rest) := by
      simp [tailText]
    have ends : Ends (tailText write values gap '}' rest) := tailText_ends blank (by decide)
    have shorter : (tailText write values gap '}' rest).length <
        (',' :: (write value ++ tailText write values gap '}' rest)).length := by
      rw [List.length_cons, List.length_append]
      omega
    rw [text, membersAfter, skipSpace_cons (by decide)]
    simp only [first _ ends, if_pos shorter, ih others]
    rfl

theorem items_eq {limit : Nat} {first : Json} {values : List Json}
    (reads : value limit input = .ok (first, after))
    (others : itemsAfter (value limit) after = .ok (values, rest)) :
    items (value limit) input = .ok (first :: values, rest) := by
  unfold items
  rw [← value_skipSpace] at reads
  split
  · rename_i shape
    rw [shape] at reads
    cases limit <;> cases reads
  · rw [reads]
    simp [others]

theorem members_eq {first : String × Json} {values : List (String × Json)}
    (reads : member item input = .ok (first, after))
    (others : membersAfter item after = .ok (values, rest)) :
    members item input = .ok (first :: values, rest) := by
  have again : skipSpace (skipSpace input) = skipSpace input := List.dropWhile_idempotent ..
  have reads : member item (skipSpace input) = .ok (first, after) := by
    rw [← reads, member, member, again]
  unfold members
  split
  · rename_i shape
    rw [shape] at reads
    cases reads
  · rw [reads]
    simp [others]

/-! ### Whole values -/

/-- The text of an item, on a line of its own. -/
def itemText (level : Nat) (value : Json) : List Char :=
  (lineBreak level).toList ++ (prettyAt level value).toList

/-- The text of a member, on a line of its own. -/
def memberText (level : Nat) (member : String × Json) : List Char :=
  (lineBreak level).toList ++ ((quoted member.1).toList ++ ':' :: ' ' ::
    (prettyAt level member.2).toList)

theorem toList_prettyItems (level : Nat) (first : Json) (others : List Json) :
    (prettyItems level (first :: others)).toList =
      itemText level first ++ others.flatMap fun value => ',' :: itemText level value := by
  induction others generalizing first with
  | nil => simp [prettyItems, itemText]
  | cons second others ih => simp [prettyItems, itemText, ih]

theorem toList_prettyMembers (level : Nat) (first : String × Json)
    (others : List (String × Json)) :
    (prettyMembers level (first :: others)).toList =
      memberText level first ++ others.flatMap fun value => ',' :: memberText level value := by
  induction others generalizing first with
  | nil => simp [prettyMembers, memberText]
  | cons second others ih => simp [prettyMembers, memberText, ih]

theorem member_memberText {level limit : Nat} {member : String × Json}
    (reads : Reads (value limit) (prettyAt level member.2).toList member.2) :
    Reads (Reader.member (value limit)) (memberText level member) member := by
  intro rest ends
  have text : memberText level member ++ rest = (lineBreak level).toList ++
      '"' :: (member.1.toList.flatMap escape ++
        '"' :: ':' :: ([' '] ++ ((prettyAt level member.2).toList ++ rest))) := by
    simp [memberText, quoted]
  rw [text, Reader.member, skipSpace_append (lineBreak_blank level), skipSpace_cons (by decide)]
  have colon : ∀ more, skipSpace (':' :: more) = ':' :: more := fun _ => skipSpace_cons (by decide)
  simp only [characters_quoted, bind_eq_ok]
  refine ⟨_, rfl, ?_⟩
  simp only [colon]
  rw [value_append limit (by decide), reads rest ends, String.ofList_toList]
  rfl

theorem value_itemText {level limit : Nat} {json : Json}
    (reads : Reads (value limit) (prettyAt level json).toList json) :
    Reads (value limit) (itemText level json) json := by
  intro rest ends
  rw [itemText, List.append_assoc, value_append limit (lineBreak_blank level), reads rest ends]

/-- A value whose text starts with neither white space nor a bracket. -/
theorem value_of_valueWith {limit : Nat} {c : Char} (visible : isSpace c = false)
    (noList : c ≠ '[') (noObject : c ≠ '{') :
    value limit (c :: input) = valueWith (fun _ => .error .tooDeep) (c :: input) := by
  cases limit with
  | zero =>
    rw [value, skipSpace_cons visible]
    split <;> simp_all
  | succ limit =>
    rw [value, valueWith, valueWith, skipSpace_cons visible]
    split <;> simp_all

theorem value_number {limit : Nat} {c : Char} (number : c = '-' ∨ isDigit c = true) :
    value limit (c :: input) = (do
      let lexed ← lexNumber (c :: input)
      return (← lexed.1.value, lexed.2)) := by
  have visible : isSpace c = false := by
    rw [Bool.eq_false_iff]
    intro blank
    simp only [isSpace, Bool.or_eq_true, beq_iff_eq] at blank
    rcases blank with ((rfl | rfl) | rfl) | rfl <;> revert number <;> decide
  have isOther : ∀ d, (d = '-' ∨ isDigit d = true) = False → c ≠ d := by
    rintro d other rfl
    exact other ▸ number
  rw [value_of_valueWith visible (isOther _ (by decide)) (isOther _ (by decide)), valueWith,
    skipSpace_cons visible]
  split <;> rename_i same <;> try exact absurd (List.cons.inj same).1 (isOther _ (by decide))
  rfl

theorem reads_integer {limit : Nat} {n : Int} (least : -0x8000000000000000 ≤ n)
    (most : n < 0x10000000000000000) : Reads (value limit) (toString n).toList (.integer n) := by
  intro rest ends
  have text : (toString n).toList ++ rest =
      (if decide (n < 0) then ['-'] else []) ++ (Nat.toDigits 10 n.natAbs ++ rest) := by
    rw [toString_int, ← toList_toString]
    by_cases negative : n < 0
    · rw [if_pos negative, if_pos (by simpa using negative), String.toList_append]
      rfl
    · rw [if_neg negative, if_neg (by simpa using negative)]
      rfl
  have lexed := lexNumber_toDigits (n < 0) n.natAbs ends
  have first : ∃ c more, (c = '-' ∨ isDigit c = true) ∧
      (toString n).toList ++ rest = c :: more := by
    rw [text]
    by_cases negative : n < 0
    · exact ⟨'-', _, .inl rfl, by simp [negative]; rfl⟩
    · obtain ⟨digit, more, shape, isDigit, -⟩ := exists_toDigits_eq_cons n.natAbs
      exact ⟨digit, _, .inr isDigit, by simp [negative, shape]; rfl⟩
  obtain ⟨c, more, number, shape⟩ := first
  rw [shape, value_number number, ← shape, text, lexed]
  simp [value_lexeme least most]

theorem reads_text {limit : Nat} (text : String) :
    Reads (value limit) (quoted text).toList (.text text) := by
  intro rest _
  have shape : (quoted text).toList ++ rest =
      '"' :: (text.toList.flatMap escape ++ '"' :: rest) := by
    simp [quoted]
  rw [shape, value_of_valueWith (by decide) (by decide) (by decide), valueWith,
    skipSpace_cons (by decide)]
  simp [characters_quoted, Except.map]

theorem word_append (name : String) (json : Json) (rest : List Char) :
    word name json (name.toList ++ rest) = .ok (json, rest) := by
  rw [word, if_pos (List.isPrefixOf_iff_prefix.2 (List.prefix_append ..)),
    List.drop_left' String.length_toList]

theorem reads_null {limit : Nat} : Reads (value limit) "null".toList .null := by
  intro rest _
  have shape : "null".toList ++ rest = 'n' :: ("ull".toList ++ rest) := rfl
  rw [shape, value_of_valueWith (by decide) (by decide) (by decide), valueWith,
    skipSpace_cons (by decide)]
  exact word_append "null" .null rest

theorem reads_boolean {limit : Nat} (truth : Bool) :
    Reads (value limit) (if truth then "true" else "false").toList (.boolean truth) := by
  intro rest _
  cases truth with
  | true =>
    have shape : "true".toList ++ rest = 't' :: ("rue".toList ++ rest) := rfl
    rw [if_pos rfl, shape, value_of_valueWith (by decide) (by decide) (by decide), valueWith,
      skipSpace_cons (by decide)]
    exact word_append "true" (.boolean true) rest
  | false =>
    have shape : "false".toList ++ rest = 'f' :: ("alse".toList ++ rest) := rfl
    rw [if_neg (by decide), shape, value_of_valueWith (by decide) (by decide) (by decide),
      valueWith, skipSpace_cons (by decide)]
    exact word_append "false" (.boolean false) rest

/-- A whole value is read from its pretty text. -/
theorem reads_prettyAt {json : Json} (whole : json.Whole) (level limit : Nat)
    (fits : json.depth ≤ limit) : Reads (value limit) (prettyAt level json).toList json := by
  -- A container leaves one level less to what it holds, and prints it further to the right.
  induction whole generalizing level limit with
  | null => exact reads_null
  | boolean => exact reads_boolean _
  | integer least most => exact reads_integer least most
  | text => exact reads_text _
  | @list items each ih =>
    cases limit with
    | zero => exact absurd fits (by simp [depth])
    | succ limit =>
      intro rest _
      have reads : ∀ item ∈ items, Reads (value limit) (itemText (level + 1) item) item :=
        fun item found => value_itemText (ih item found _ _ (depth_list_le.1 fits item found))
      cases items with
      | nil =>
        have text : (prettyAt level (list [])).toList ++ rest = '[' :: ']' :: rest := by
          simp [prettyAt]
        rw [text, value, valueWith, skipSpace_cons (by decide)]
        rfl
      | cons first others =>
        have text : (prettyAt level (list (first :: others))).toList ++ rest =
            '[' :: (itemText (level + 1) first ++
              tailText (itemText (level + 1)) others (lineBreak level).toList ']' rest) := by
          simp [prettyAt, toList_prettyItems, tailText]
        obtain ⟨isFirst, areOthers⟩ := List.forall_mem_cons.1 reads
        have blank := lineBreak_blank level
        rw [text, value, valueWith, skipSpace_cons (by decide)]
        simp [items_eq (isFirst _ (tailText_ends blank (by decide)))
          (itemsAfter_tailText blank areOthers), Except.map]
  | @object members each ih =>
    cases limit with
    | zero => exact absurd fits (by simp [depth])
    | succ limit =>
      intro rest _
      have reads : ∀ found ∈ members,
          Reads (member (value limit)) (memberText (level + 1) found) found :=
        fun found present => member_memberText
          (ih found present _ _ (depth_object_le.1 fits found present))
      cases members with
      | nil =>
        have text : (prettyAt level (object [])).toList ++ rest = '{' :: '}' :: rest := by
          simp [prettyAt]
        rw [text, value, valueWith, skipSpace_cons (by decide)]
        rfl
      | cons first others =>
        have text : (prettyAt level (object (first :: others))).toList ++ rest =
            '{' :: (memberText (level + 1) first ++
              tailText (memberText (level + 1)) others (lineBreak level).toList '}' rest) := by
          simp [prettyAt, toList_prettyMembers, tailText]
        obtain ⟨isFirst, areOthers⟩ := List.forall_mem_cons.1 reads
        have blank := lineBreak_blank level
        rw [text, value, valueWith, skipSpace_cons (by decide)]
        simp [members_eq (isFirst _ (tailText_ends blank (by decide)))
          (membersAfter_tailText blank areOthers), Except.map]

end Reader

/-- What is printed of a whole value that nests no deeper than the reader allows reads back. -/
theorem ofText_pretty {json : Json} (whole : json.Whole) (fits : json.depth ≤ depthLimit) :
    ofText json.pretty = .ok json := by
  have reads := Reader.reads_prettyAt whole 0 depthLimit fits [] (by rintro _ ⟨⟩)
  rw [List.append_nil] at reads
  rw [ofText, pretty, reads]
  rfl

end EventQuery.Json
