import EventQuery.Proofs.JsonText
import EventQuery.Statement.Json
import Mathlib.Data.List.Nodup

/-!
Records as they are written and read. The members of a written record have different
names, so that whatever is looked up among them is what was written under that name.
-/
namespace EventQuery.Json

open Outcome

variable {α β : Type} {names : List String} {members : List (String × Json)} {name : String}

/-! ### Lookup -/

theorem lookupOnce_eq (unique : (members.map Prod.fst).Nodup) :
    lookupOnce members name = .ok (members.lookup name) := by
  have found : members.filter (fun member => member.1 == name) =
      (members.lookup name).toList.map fun value => (name, value) := by
    induction members with
    | nil => rfl
    | cons member rest ih =>
      obtain ⟨fresh, others⟩ := List.nodup_cons.1 unique
      obtain ⟨first, value⟩ := member
      by_cases same : first = name
      · subst same
        have none : rest.filter (fun other => other.1 == first) = [] := by
          simp only [List.filter_eq_nil_iff, beq_iff_eq]
          exact fun other listed again => fresh (List.mem_map.2 ⟨other, listed, again⟩)
        simp [none]
      · have other : (name == first) = false := beq_false_of_ne (Ne.symm same)
        simp [same, ih others, List.lookup_cons, other]
  unfold lookupOnce
  rw [found]
  cases members.lookup name <;> rfl

/-- The record of those members that have one of the names. -/
def Record.picked (names : List String) (members : List (String × Json)) : Record :=
  ⟨names.filterMap fun name => (members.lookup name).map fun value => (name, value)⟩

@[simp] theorem Record.get?_picked :
    (picked names members).get? name = if name ∈ names then members.lookup name else none := by
  unfold get? picked
  induction names with
  | nil => rfl
  | cons first rest ih =>
    by_cases same : name = first
    · subst same
      cases known : members.lookup name <;> simp [known, ih]
    · have other : (name == first) = false := beq_false_of_ne same
      cases known : members.lookup first <;> simp [known, ih, List.lookup_cons, other, same]

@[simp] theorem asRecord_object (unique : (members.map Prod.fst).Nodup) :
    (object members).asRecord names = .ok (.picked names members) := by
  let pairs := names.map fun name => (members.lookup name).map fun value => (name, value)
  have given : (names.mapM fun name => do
      pure ((← lookupOnce members name).map fun value => (name, value)) :
        Decoded (List (Option (String × Json)))) = .ok pairs := by
    refine mapM_eq_ok.2 (List.forall₂_map_right_iff.2 (List.forall₂_same.2 fun name _ => ?_))
    rw [lookupOnce_eq unique]
    rfl
  rw [asRecord, given]
  exact congrArg (fun given => Except.ok (Record.mk given)) List.filterMap_map

theorem asTagged_of_lookup {tag word : String} (unique : (members.map Prod.fst).Nodup)
    (known : members.lookup tag = some (text word)) :
    (object members).asTagged tag = .ok (word, object members) := by
  rw [asTagged, lookupOnce_eq unique, known]
  rfl

@[simp] theorem asTagged_object {tag word : String}
    (unique : (((tag, text word) :: members).map Prod.fst).Nodup) :
    (object ((tag, text word) :: members)).asTagged tag =
      .ok (word, object ((tag, text word) :: members)) :=
  asTagged_of_lookup unique (by simp)

/-! ### Names -/

/-- The members have some of the names, in their order. -/
def Named (names : List String) (members : List (String × Json)) : Prop :=
  (members.map Prod.fst).Sublist names

namespace Named

theorem given {values : List (String × Json)} : Named (values.map Prod.fst) values :=
  List.Sublist.refl _

theorem cons {value : Json} (named : Named names members) :
    Named (name :: names) ((name, value) :: members) := List.Sublist.cons_cons name named

theorem optional {value : Option Json} : Named [name] (optionalMember name value) := by
  cases value with
  | none => exact List.nil_sublist _
  | some value => exact List.Sublist.refl _

theorem list {items : List Json} : Named [name] (listMember name items) := by
  unfold listMember
  split
  · exact List.nil_sublist _
  · exact List.Sublist.refl _

theorem append {names' : List String} {members' : List (String × Json)}
    (first : Named names members) (second : Named names' members') :
    Named (names ++ names') (members ++ members') := by
  rw [Named, List.map_append]
  exact List.Sublist.append first second

theorem unique (named : Named names members) (different : names.Nodup) :
    (members.map Prod.fst).Nodup := different.sublist named

end Named

/-! ### Members that may be left out -/

@[simp] theorem lookup_optionalMember {value : Option Json} {given : String} :
    (optionalMember given value).lookup name = if name = given then value else none := by
  cases value <;> by_cases same : name = given <;>
    simp [optionalMember, List.lookup_cons, same, beq_false_of_ne]

@[simp] theorem lookup_listMember {items : List Json} {given : String} :
    (listMember given items).lookup name =
      if name = given ∧ items ≠ [] then some (.list items) else none := by
  cases items <;> by_cases same : name = given <;>
    simp [listMember, List.lookup_cons, same, beq_false_of_ne]

@[simp] theorem forall_mem_optionalMember {P : String → Json → Prop} {value : Option Json} :
    (∀ given json, (given, json) ∈ optionalMember name value → P given json) ↔
      ∀ json, value = some json → P name json := by
  cases value <;> simp [optionalMember]

@[simp] theorem forall_mem_listMember {P : String → Json → Prop} {items : List Json} :
    (∀ given json, (given, json) ∈ listMember name items → P given json) ↔
      (items ≠ [] → P name (list items)) := by
  cases items <;> simp [listMember]

/-! ### Decoding -/

variable {encode : α → Json} {decode : Json → Decoded β} {change : α → β} {record : Record}

theorem asListOf_map {items : List α}
    (each : ∀ item ∈ items, decode (encode item) = .ok (change item)) :
    (list (items.map encode)).asListOf decode = .ok (items.map change) := by
  have reads : (items.map encode).mapM decode = .ok (items.map change) := by
    rw [mapM_eq_ok, List.forall₂_map_left_iff, List.forall₂_map_right_iff]
    exact List.forall₂_same.2 each
  rw [asListOf, asItems]
  exact reads

namespace Record

theorem required_eq {json : Json} {value : β} (written : record.get? name = some json)
    (reads : decode json = .ok value) : record.required name decode = .ok value := by
  rw [required, written]
  exact reads

theorem required_text {value : String} (written : record.get? name = some (text value)) :
    record.required name asText = .ok value := required_eq written rfl

theorem optional_eq {value : Option α} (written : record.get? name = value.map encode)
    (filled : ∀ part, value = some part → encode part ≠ null)
    (reads : ∀ part, value = some part → decode (encode part) = .ok (change part)) :
    record.optional name decode = .ok (value.map change) := by
  rw [optional, written]
  cases value with
  | none => rfl
  | some part =>
    rw [Option.map_some]
    split
    · rename_i impossible
      cases impossible
    · rename_i same
      exact absurd (Option.some.inj same) (filled part rfl)
    · rename_i same
      cases same
      rw [reads part rfl]
      rfl

theorem optional_text {value : Option String} (written : record.get? name = value.map text) :
    record.optional name asText = .ok value := by
  have reads : record.optional name asText = .ok (value.map id) :=
    optional_eq written (by simp) (by simp [asText])
  rwa [Option.map_id_fun] at reads

theorem listOrEmpty_eq {items : List α}
    (written : record.get? name =
      if items.map encode ≠ [] then some (list (items.map encode)) else none)
    (reads : ∀ item ∈ items, decode (encode item) = .ok (change item)) :
    record.listOrEmpty name decode = .ok (items.map change) := by
  rw [listOrEmpty, withDefault, written]
  cases items with
  | nil => rfl
  | cons first rest => exact asListOf_map reads

theorem listOrEmpty_text {items : List String}
    (written : record.get? name =
      if items.map text ≠ [] then some (list (items.map text)) else none) :
    record.listOrEmpty name asText = .ok items := by
  have reads : record.listOrEmpty name asText = .ok (items.map id) :=
    listOrEmpty_eq written (by simp [asText])
  rwa [List.map_id] at reads

end Record

theorem asWordOf_name {values : List α} {name : α → String} {value : α} (listed : value ∈ values)
    (unique : (values.map name).Nodup) : (text (name value)).asWordOf values name = .ok value := by
  have found : (values.find? fun other => name other == name value) = some value := by
    induction values with
    | nil => cases listed
    | cons first rest ih =>
      obtain ⟨fresh, unique⟩ := List.nodup_cons.1 unique
      rcases List.mem_cons.1 listed with rfl | listed
      · simp
      · have other : name first ≠ name value := fun same =>
          fresh (same ▸ List.mem_map_of_mem listed)
        rw [List.find?_cons_of_neg (by simpa using other), ih listed unique]
  simp [asWordOf, found]

theorem asWord_integer {width : Int → Option α} {n : Int} {word : α} (fits : width n = some word) :
    (integer n).asWord width = .ok word := by
  simp [asWord, asInteger, fits]

theorem asInt64_toInt (word : Int64) : (integer word.toInt).asInt64 = .ok word :=
  asWord_integer (Number.Width.int64?_toInt word)

/-! ### Whole numbers and depth -/

@[simp] theorem whole_null : null.Whole := .null

@[simp] theorem whole_boolean (value : Bool) : (boolean value).Whole := .boolean

@[simp] theorem whole_text (value : String) : (text value).Whole := .text

@[simp] theorem whole_int64 (word : Int64) : (integer word.toInt).Whole := by
  have least := word.le_toInt
  have most := word.toInt_lt
  exact .integer (by omega) (by omega)

@[simp] theorem whole_int32 (word : Int32) : (integer word.toInt).Whole := by
  have least := word.le_toInt
  have most := word.toInt_lt
  exact .integer (by omega) (by omega)

@[simp] theorem whole_int16 (word : Int16) : (integer word.toInt).Whole := by
  have least := word.le_toInt
  have most := word.toInt_lt
  exact .integer (by omega) (by omega)

@[simp] theorem whole_int8 (word : Int8) : (integer word.toInt).Whole := by
  have least := word.le_toInt
  have most := word.toInt_lt
  exact .integer (by omega) (by omega)

@[simp] theorem whole_list {items : List Json} :
    (list items).Whole ↔ ∀ item ∈ items, item.Whole := by
  refine ⟨fun whole => ?_, .list⟩
  cases whole with
  | list each => exact each

@[simp] theorem whole_object : (object members).Whole ↔ ∀ member ∈ members, member.2.Whole := by
  refine ⟨fun whole => ?_, .object⟩
  cases whole with
  | object each => exact each

theorem depth_item_lt {items : List Json} {item : Json} (listed : item ∈ items) :
    item.depth < (list items).depth := by
  cases shape : (list items).depth with
  | zero => simp [depth] at shape
  | succ limit => exact Nat.lt_succ_of_le (depth_list_le.1 shape.le item listed)

theorem depth_member_lt (name : String) {value : Json} (listed : (name, value) ∈ members) :
    value.depth < (object members).depth := by
  cases shape : (object members).depth with
  | zero => simp [depth] at shape
  | succ limit => exact Nat.lt_succ_of_le (depth_object_le.1 shape.le (name, value) listed)

/-- What nests no deeper than a limit has no deeper parts. -/
theorem depth_item_le {items : List Json} {limit : Nat} (fits : (list items).depth ≤ limit) :
    ∀ item ∈ items, item.depth ≤ limit :=
  fun _ listed => Nat.le_trans (Nat.le_of_lt (depth_item_lt listed)) fits

theorem depth_member_le {limit : Nat} (fits : (object members).depth ≤ limit) :
    ∀ name json, (name, json) ∈ members → json.depth ≤ limit :=
  fun name _ listed => Nat.le_trans (Nat.le_of_lt (depth_member_lt name listed)) fits

end EventQuery.Json
