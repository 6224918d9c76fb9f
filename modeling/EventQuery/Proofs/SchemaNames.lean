import EventQuery.Proofs.OrdinalFields
import EventQuery.Text.Blank
import Mathlib.Data.List.Perm.Lattice
import Mathlib.Data.List.TakeWhile

/-!
What a schema knows by name. A built schema has every relation and every field of its declaration
under its dotted name and loses none, and the ordinal field of a path is the one its relation
declares. A name that is not absolute means the paths that end with its words: one such path is
the answer, several are an ambiguity. Only a name that no path ends with is tried as a field of the
root relation.
-/
namespace EventQuery

open Reading (nameWords nameWords_append nameWords_intercalate nameWords_ne_nil nameWords_single
  intercalate_nameWords)

variable {declaration : RelationDeclaration} {schema : Schema} {path relation : Path}

namespace Path

theorem singleton_suffix_iff {name : String} (nonempty : path.segments ≠ []) :
    [name] <:+ path.segments ↔ path.name = name := by
  obtain ⟨before, last, shape⟩ := (List.eq_nil_or_concat path.segments).resolve_left nonempty
  rw [Path.name, shape, List.concat_eq_append, List.getLastD_concat,
    List.singleton_suffix_append_singleton_iff, eq_comm]

/-- What stands above a path stands above its relation. -/
theorem prefix_owner {words : List String} (above : words <+: path.segments)
    (shorter : words.length < path.segments.length) : words <+: path.owner := by
  cases path with
  | relation => exact above
  | field owner name info =>
    rcases List.prefix_concat_iff.1 above with rfl | above
    · exact absurd shorter (Nat.lt_irrefl _)
    · exact above

end Path

/-! ### Contents -/

namespace RelationDeclaration

/-- The relation at a place declares the ordinal field. -/
def DeclaresOrdinal (declaration : RelationDeclaration) (segments : List String) (ordinal : Path) :
    Prop :=
  ∃ relation, (segments, relation) ∈ declaration.located [] ∧
    ∃ field ∈ relation.fields, field.isOrdinal = true ∧ Schema.fieldPath segments field = ordinal

/-- A relation with the dotted name declares the ordinal field. -/
def DeclaresOrdinalAt (declaration : RelationDeclaration) (dotted : String)
    (ordinal : Path) : Prop :=
  ∃ segments, ".".intercalate segments = dotted ∧ declaration.DeclaresOrdinal segments ordinal

end RelationDeclaration

namespace Schema

theorem declaresOrdinal_iff (built : ofDeclaration declaration = .ok schema)
    {segments : List String} {ordinal : Path} :
    declaration.DeclaresOrdinal segments ordinal ↔
      schema.IsOrdinal ordinal ∧ ordinal.owner = segments := by
  constructor
  · rintro ⟨relation, located, field, member, isOrdinal, rfl⟩
    refine ⟨⟨?_, isOrdinal⟩, rfl⟩
    obtain ⟨-, rfl⟩ := ofDeclaration_eq_ok.1 built
    exact RelationDeclaration.mem_listing.2 ⟨_, relation, located, .inr ⟨field, member, rfl⟩⟩
  · rintro ⟨isOrdinal, rfl⟩
    exact isOrdinal.exists_field built

theorem declaresOrdinalAt_iff (built : ofDeclaration declaration = .ok schema) {dotted : String}
    {ordinal : Path} :
    declaration.DeclaresOrdinalAt dotted ordinal ↔
      schema.IsOrdinal ordinal ∧ ordinal.home.dotted = dotted := by
  simp only [RelationDeclaration.DeclaresOrdinalAt, declaresOrdinal_iff built]
  constructor
  · rintro ⟨_, rfl, isOrdinal, rfl⟩
    exact ⟨isOrdinal, rfl⟩
  · rintro ⟨isOrdinal, rfl⟩
    exact ⟨ordinal.owner, rfl, isOrdinal, rfl⟩

theorem nodup_knownNames (built : ofDeclaration declaration = .ok schema) :
    schema.knownNames.Nodup := by
  refine (List.nodup_map_iff_inj_on (nodup_paths built)).2 ?_
  exact fun path listed path' listed' same => eq_of_dotted built listed listed' same

/-- A schema is built exactly from a sound declaration. It knows each relation and each field by its
name and once only, in the order of the declaration. The ordinal field of a path is the one that the
relation with the dotted name of its structure declares; without points in the names of the path,
as in every path of the schema, this is its structure itself. -/
theorem ofDeclaration_exact (declaration : RelationDeclaration) :
    ((∃ schema, ofDeclaration declaration = .ok schema) ↔ declaration.IsAccepted) ∧
    ∀ schema, ofDeclaration declaration = .ok schema →
      schema.knownNames = (declaration.listing []).map Path.dotted ∧
      schema.knownNames.Nodup ∧
      (∀ path ∈ declaration.listing [],
        schema.lookup? path.dotted = some path ∧ path.IsDotless) ∧
      ∀ path,
        (∀ ordinal, schema.ordinalOf? path = some ordinal ↔
          declaration.DeclaresOrdinalAt path.home.dotted ordinal) ∧
        (schema.ordinalOf? path = none ↔
          ∀ ordinal, ¬ declaration.DeclaresOrdinalAt path.home.dotted ordinal) ∧
        (path.IsDotless → ∀ ordinal, declaration.DeclaresOrdinalAt path.home.dotted ordinal ↔
          declaration.DeclaresOrdinal path.owner ordinal) := by
  constructor
  · simp only [ofDeclaration_eq_ok, exists_and_left, exists_eq, and_true]
  · intro schema built
    have ordinals : ∀ path ordinal, schema.ordinalOf? path = some ordinal ↔
        declaration.DeclaresOrdinalAt path.home.dotted ordinal := fun path ordinal =>
      (ordinalOf?_eq_some built).trans (declaresOrdinalAt_iff built).symm
    have paths : schema.paths = declaration.listing [] := by
      rw [(ofDeclaration_eq_ok.1 built).2]
    refine ⟨?_, nodup_knownNames built, ?_, fun path => ⟨ordinals path, ?_, ?_⟩⟩
    · rw [knownNames, paths]
    · intro path listed
      rw [← paths] at listed
      exact ⟨(lookup?_eq_some built).2 ⟨listed, rfl⟩, isDotless_of_mem built listed⟩
    · simp only [Option.eq_none_iff_forall_ne_some, Ne, ordinals path]
    · intro dotless ordinal
      rw [declaresOrdinalAt_iff built, declaresOrdinal_iff built]
      exact and_congr_right fun isOrdinal => isOrdinal.eq_owner_iff_dotted built dotless

/-- Two kinds of visits have events, those of sessions with a time. -/
private def visits : RelationDeclaration :=
  .mk "user" [⟨"country", .string, false, false⟩]
    [.mk "sessions" []
        [.mk "events" [⟨"id", .long, false, false⟩, ⟨"ts", .datetime, false, true⟩] []],
      .mk "purchases" [] [.mk "events" [⟨"id", .long, false, false⟩] []]]

theorem ofDeclaration_exact_visits :
    visits.IsAccepted ∧ ∃ schema, ofDeclaration visits = .ok schema ∧
      schema.knownNames = ["user", "user.country", "user.sessions", "user.sessions.events",
        "user.sessions.events.id", "user.sessions.events.ts", "user.purchases",
        "user.purchases.events", "user.purchases.events.id"] ∧
      schema.knownNames.Nodup ∧
      ∀ ordinal, ¬ visits.DeclaresOrdinal ["user", "purchases", "events"] ordinal := by
  have built : ofDeclaration visits = .ok ⟨.relation ["user"], visits.listing []⟩ := rfl
  obtain ⟨accepts, knows⟩ := ofDeclaration_exact visits
  obtain ⟨names, distinct, -, ordinals⟩ := knows _ built
  refine ⟨accepts.1 ⟨_, built⟩, _, built, names, distinct, fun ordinal declares => ?_⟩
  obtain ⟨-, absent, same⟩ := ordinals (.relation ["user", "purchases", "events"])
  have dotless : (Path.relation ["user", "purchases", "events"]).IsDotless := by
    unfold Path.IsDotless
    decide
  exact absent.1 rfl ordinal ((same dotless ordinal).2 declares)

/-! ### Words of a name -/

theorem ne_point_of_mem {text : String} (dotless : '.' ∉ text.toList) :
    ∀ c ∈ text.toList, (c != '.') = true := by
  intro c member
  rw [bne_iff_ne]
  rintro rfl
  exact dotless member

theorem splitHead_dotless {name : String} (dotless : '.' ∉ name.toList) :
    splitHead name = (name, none) := by
  have within := ne_point_of_mem dotless
  simp only [splitHead, List.dropWhile_eq_nil_iff.2 within, List.takeWhile_eq_self_iff.2 within,
    String.ofList_toList]

theorem splitHead_append {head rest : String} (dotless : '.' ∉ head.toList) :
    splitHead (head ++ "." ++ rest) = (head, some rest) := by
  have within := ne_point_of_mem dotless
  have chars : (head ++ "." ++ rest).toList = head.toList ++ '.' :: rest.toList := by simp
  simp only [splitHead, chars, List.takeWhile_append_of_pos within,
    List.dropWhile_append_of_pos within]
  simp

theorem eq_of_nameWords {name : String} (same : nameWords name = path.segments) :
    path.dotted = name := by
  rw [Path.dotted, ← same, intercalate_nameWords]

/-- A name behind that of a relation or field has its words behind the segments. -/
theorem dotted_eq_append (built : ofDeclaration declaration = .ok schema)
    (listed : path ∈ schema.paths) (listed' : relation ∈ schema.paths) {rest : String} :
    path.dotted = relation.dotted ++ "." ++ rest ↔
      path.segments = relation.segments ++ nameWords rest := by
  rw [← nameWords_dotted built listed, ← nameWords_dotted built listed', ← nameWords_append]
  constructor
  · intro same
    rw [same]
  · intro same
    rw [← intercalate_nameWords path.dotted, same, intercalate_nameWords]

/-! ### The paths a name ends -/

/-- The paths that have more names before the words of a name and none behind them. A single word
stands for relations only. -/
def endings (schema : Schema) (name : String) : List Path :=
  schema.paths.filter fun path =>
    (nameWords name).isSuffixOf path.segments && nameWords name != path.segments &&
      ((nameWords name).length != 1 || path.isRelation)

/-- The field of the root relation with this name, if there is one. -/
def rootFields (schema : Schema) (name : String) : List Path :=
  schema.paths.filter fun path =>
    path.segments == schema.root.segments ++ [name] && !path.isRelation

/-- What a name may mean that is not absolute. -/
def meanings (schema : Schema) (name : String) : List Path :=
  if (schema.endings name).isEmpty then schema.rootFields name else schema.endings name

variable {name : String}

theorem mem_endings : path ∈ schema.endings name ↔
    path ∈ schema.paths ∧ nameWords name <:+ path.segments ∧ nameWords name ≠ path.segments ∧
      ((nameWords name).length = 1 → path.isRelation = true) := by
  simp [endings, and_assoc, imp_iff_not_or]

theorem mem_rootFields : path ∈ schema.rootFields name ↔
    path ∈ schema.paths ∧ path.segments = schema.root.segments ++ [name] ∧
      path.isRelation = false := by
  simp [rootFields]

theorem ne_of_lookup?_eq_none (absent : schema.lookup? name = none) (listed : path ∈ schema.paths) :
    nameWords name ≠ path.segments := by
  intro same
  have differs := List.find?_eq_none.1 absent path listed
  simp [eq_of_nameWords same] at differs

/-- A name of one word means the relations of that name. -/
theorem candidates_dotless (built : ofDeclaration declaration = .ok schema)
    (absent : schema.lookup? name = none) (dotless : '.' ∉ name.toList) :
    schema.candidates name = schema.endings name := by
  simp only [candidates, splitHead_dotless dotless]
  refine List.filter_congr fun path listed => ?_
  have apart := ne_of_lookup?_eq_none absent listed
  rw [nameWords_single dotless] at apart ⊢
  have ends : [name].isSuffixOf path.segments = (path.name == name) := by
    rw [Bool.eq_iff_iff, List.isSuffixOf_iff_suffix, beq_iff_eq]
    exact Path.singleton_suffix_iff (segments_ne_nil built listed)
  rw [ends, bne_iff_ne.2 apart]
  cases path.isRelation <;> simp

/-- A name of several words means what stands below a relation with its first word. -/
theorem mem_candidates_append (built : ofDeclaration declaration = .ok schema) {head rest : String}
    (dotless : '.' ∉ head.toList) :
    path ∈ schema.candidates (head ++ "." ++ rest) ↔ path ∈ schema.paths ∧
      ∃ before, .relation (before ++ [head]) ∈ schema.paths ∧
        path.segments = before ++ [head] ++ nameWords rest := by
  simp only [candidates, splitHead_append dotless, List.mem_filterMap, List.mem_filter,
    Bool.and_eq_true, beq_iff_eq, lookup?_eq_some built]
  constructor
  · rintro ⟨relation, ⟨declared, isRelation, rfl⟩, listed, same⟩
    have shape := (dotted_eq_append built listed declared).1 same
    obtain ⟨before, ends⟩ := (Path.singleton_suffix_iff (segments_ne_nil built declared)).2 rfl
    refine ⟨listed, before, ?_, by rw [shape, ends]⟩
    cases relation with
    | relation segments => rwa [ends]
    | field => cases isRelation
  · rintro ⟨listed, before, declared, shape⟩
    refine ⟨.relation (before ++ [head]), ⟨declared, rfl, ?_⟩, listed, ?_⟩
    · rw [Path.name, Path.segments, List.getLastD_concat]
    · exact (dotted_eq_append built listed declared).2 shape

theorem nodup_candidates (built : ofDeclaration declaration = .ok schema) :
    (schema.candidates name).Nodup := by
  obtain ⟨head, rest, shape⟩ : ∃ head rest, splitHead name = (head, rest) := ⟨_, _, rfl⟩
  have relations := (nodup_paths built).filter fun path => path.isRelation && path.name == head
  simp only [candidates, shape]
  cases rest with
  | none => exact relations
  | some rest =>
    refine List.pairwise_filterMap.2 (relations.imp_of_mem ?_)
    intro relation relation' member member' different path found path' found' same
    have listed := List.mem_of_mem_filter member
    have listed' := List.mem_of_mem_filter member'
    obtain ⟨here, shape⟩ := (lookup?_eq_some built).1 found
    obtain ⟨here', shape'⟩ := (lookup?_eq_some built).1 found'
    rw [dotted_eq_append built here listed] at shape
    rw [dotted_eq_append built here' listed', ← same, shape] at shape'
    exact different (eq_of_segments built listed listed' (List.append_cancel_right shape'))

theorem nodup_endings (built : ofDeclaration declaration = .ok schema) :
    (schema.endings name).Nodup := (nodup_paths built).filter _

theorem nodup_rootFields (built : ofDeclaration declaration = .ok schema) :
    (schema.rootFields name).Nodup := (nodup_paths built).filter _

/-- What the search by first words finds is what ends with all the words. -/
theorem candidates_perm (built : ofDeclaration declaration = .ok schema)
    (absent : schema.lookup? name = none) :
    (schema.candidates name).Perm (schema.endings name) := by
  rcases Reading.dotless_or_eq_append name with dotless | ⟨head, rest, dotless, rfl⟩
  · rw [candidates_dotless built absent dotless]
  · refine (List.perm_ext_iff_of_nodup (nodup_candidates built) (nodup_endings built)).2 ?_
    intro path
    have words : nameWords (head ++ "." ++ rest) = [head] ++ nameWords rest := by
      rw [nameWords_append, nameWords_single dotless]
    have several : 0 < (nameWords rest).length := List.length_pos_iff.2 (nameWords_ne_nil rest)
    rw [mem_candidates_append built dotless, mem_endings, words]
    refine and_congr_right fun listed => ?_
    constructor
    · rintro ⟨before, declared, shape⟩
      refine ⟨⟨before, by rw [shape, List.append_assoc]⟩, ?_, fun single => ?_⟩
      · rw [← words]
        exact ne_of_lookup?_eq_none absent listed
      · rw [List.length_append, List.length_singleton] at single
        omega
    · rintro ⟨⟨before, shape⟩, -, -⟩
      -- something stands behind the first word, so a relation of that name is around the path
      rw [← List.append_assoc] at shape
      refine ⟨before, relation_mem_of_prefix built listed (by simp) ?_, shape.symm⟩
      refine Path.prefix_owner ⟨_, shape⟩ ?_
      simp only [← shape, List.length_append]
      omega

/-! ### Fields of the root -/

theorem root_mem (built : ofDeclaration declaration = .ok schema) : schema.root ∈ schema.paths := by
  obtain ⟨-, rfl⟩ := ofDeclaration_eq_ok.1 built
  obtain ⟨name, fields, relations⟩ := declaration
  exact RelationDeclaration.mem_listing.2
    ⟨_, _, RelationDeclaration.mem_located.2 (.inl ⟨rfl, rfl⟩), .inl rfl⟩

/-- A name that no path ends with means at most a field of the root. -/
theorem mem_rootFields_iff_lookup? (built : ofDeclaration declaration = .ok schema)
    (endless : schema.endings name = []) :
    path ∈ schema.rootFields name ↔
      schema.lookup? (schema.root.dotted ++ "." ++ name) = some path := by
  have declared := root_mem built
  rw [mem_rootFields, lookup?_eq_some built]
  refine and_congr_right fun listed => ?_
  rw [dotted_eq_append built listed declared]
  constructor
  · rintro ⟨shape, -⟩
    have word : name ∈ path.segments := by simp [shape]
    rw [shape, nameWords_single (dotless_of_mem built listed word)]
  · intro shape
    -- the path ends with the name, so only a single word that is no relation keeps it out
    have deeper : nameWords name ≠ path.segments := by
      intro same
      rw [← same, List.self_eq_append_left] at shape
      exact segments_ne_nil built declared shape
    have other : path ∉ schema.endings name := endless ▸ List.not_mem_nil
    rw [mem_endings] at other
    have field : ¬((nameWords name).length = 1 → path.isRelation = true) := fun allowed =>
      other ⟨listed, ⟨_, shape.symm⟩, deeper, allowed⟩
    rw [Classical.not_imp, Bool.not_eq_true, List.length_eq_one_iff] at field
    obtain ⟨⟨word, single⟩, isField⟩ := field
    have same := intercalate_nameWords name
    rw [single, String.intercalate_singleton] at same
    exact ⟨by rw [shape, single, same], isField⟩

theorem rootFields_eq (built : ofDeclaration declaration = .ok schema)
    (endless : schema.endings name = []) :
    schema.rootFields name = (schema.lookup? (schema.root.dotted ++ "." ++ name)).toList := by
  have looked : ∀ path, path ∈ schema.rootFields name ↔
      schema.lookup? (schema.root.dotted ++ "." ++ name) = some path := fun path =>
    mem_rootFields_iff_lookup? built endless
  cases found : schema.lookup? (schema.root.dotted ++ "." ++ name) with
  | none =>
    rw [found] at looked
    exact List.eq_nil_iff_forall_not_mem.2 fun path member => nomatch (looked path).1 member
  | some path =>
    rw [found] at looked
    refine List.perm_singleton.1 ?_
    refine (List.perm_ext_iff_of_nodup (nodup_rootFields built) (List.nodup_singleton path)).2 ?_
    intro other
    rw [looked, List.mem_singleton, Option.some.injEq, eq_comm]

/-! ### The answer -/

/-- What is to be answered about a name that is not absolute. -/
def IsAnswer (schema : Schema) (name : String) (answer : Except SchemaError Path) : Prop :=
  match schema.meanings name with
  | [] => answer = .error (.unknownPath name)
  | [path] => answer = .ok path
  | several => ∃ names, answer = .error (.ambiguousPath name names) ∧
      names.Perm (several.map Path.dotted)

theorem isAnswer_of_lookup?_eq_none (built : ofDeclaration declaration = .ok schema)
    {asked : String} (absent : schema.lookup? (Text.Blank.trimmed asked) = none) :
    schema.IsAnswer (Text.Blank.trimmed asked) (schema.resolve asked) := by
  have ends := candidates_perm built absent
  unfold resolve IsAnswer meanings
  generalize Text.Blank.trimmed asked = name at absent ends ⊢
  simp only [absent]
  -- as many candidates as paths that end with the name: none, one or several
  rcases found : schema.candidates name with - | ⟨path, - | ⟨path', others⟩⟩
  · rw [found] at ends
    have endless : schema.endings name = [] := List.nil_perm.1 ends
    rw [if_pos (List.isEmpty_iff.2 endless), rootFields_eq built endless]
    cases schema.lookup? (schema.root.dotted ++ "." ++ name) <;> rfl
  · rw [found] at ends
    have single : schema.endings name = [path] := (List.singleton_perm.1 ends).symm
    rw [single]
    rfl
  · rw [found] at ends
    obtain ⟨first, second, rest, shape⟩ : ∃ first second rest,
        schema.endings name = first :: second :: rest := by
      have several := ends.length_eq
      match schema.endings name, several with
      | first :: second :: rest, _ => exact ⟨first, second, rest, rfl⟩
    rw [shape] at ends ⊢
    exact ⟨_, rfl, ends.map Path.dotted⟩

/-- A name is the path of that name. Otherwise it is the only path it ends, relations only if it is
one word, or for want of such paths a field of the root; several are an ambiguity that lists them
all, and none is an unknown path. -/
theorem resolve_spec (built : ofDeclaration declaration = .ok schema) (asked : String) :
    (∀ path ∈ schema.paths, path.dotted = Text.Blank.trimmed asked →
      schema.resolve asked = .ok path) ∧
    ((∀ path ∈ schema.paths, path.dotted ≠ Text.Blank.trimmed asked) →
      schema.IsAnswer (Text.Blank.trimmed asked) (schema.resolve asked)) := by
  refine ⟨fun path listed same => ?_, fun unlisted => ?_⟩
  · have found := (lookup?_eq_some built).2 ⟨listed, same⟩
    simp only [resolve, found]
  · apply isAnswer_of_lookup?_eq_none built
    rw [Option.eq_none_iff_forall_ne_some]
    intro path found
    obtain ⟨listed, same⟩ := (lookup?_eq_some built).1 found
    exact unlisted path listed same

theorem resolve_spec_events :
    ∃ schema, ofDeclaration visits = .ok schema ∧
      schema.IsAnswer "events.ts" (schema.resolve " events.ts ") ∧
      schema.meanings "events.ts" =
        [.field ["user", "sessions", "events"] "ts" ⟨.datetime, false, true⟩] ∧
      schema.IsAnswer "events.id" (schema.resolve "events.id") ∧
      schema.meanings "events.id" =
        [.field ["user", "sessions", "events"] "id" ⟨.long, false, false⟩,
          .field ["user", "purchases", "events"] "id" ⟨.long, false, false⟩] := by
  have built : ofDeclaration visits = .ok ⟨.relation ["user"], visits.listing []⟩ := rfl
  refine ⟨_, built, ?_, rfl, ?_, rfl⟩
  · exact (resolve_spec built " events.ts ").2 (by decide)
  · exact (resolve_spec built "events.id").2 (by decide)

end Schema

end EventQuery
