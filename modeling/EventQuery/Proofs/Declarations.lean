import EventQuery.Proofs.Names
import EventQuery.Proofs.Outcome
import EventQuery.Schema.Basic
import Mathlib.Data.List.Nodup

/-!
The declarations that make a schema. A declaration is accepted exactly if every relation in it is
sound, and the schema then lists every relation and every field once, in declaration order. Names of
members have no points, so different paths have different dotted names.
-/
namespace EventQuery

open Outcome
open Reading (nameWords nameWords_intercalate)

/-! ### Declarations -/

/-- What holds of a relation whenever it holds of the relations inside holds of every
declaration. -/
@[elab_as_elim]
theorem RelationDeclaration.byRelations {motive : RelationDeclaration → Prop}
    (node : ∀ name fields relations, (∀ relation ∈ relations, motive relation) →
      motive (.mk name fields relations)) : ∀ declaration, motive declaration
  | .mk name fields relations => node name fields relations fun relation _ =>
      byRelations node relation
termination_by declaration => sizeOf declaration
decreasing_by
  have smaller := List.sizeOf_lt_of_mem ‹relation ∈ relations›
  simp only [RelationDeclaration.mk.sizeOf_spec]
  omega

/-- What a relation or a field may be called. -/
def IsMemberName (name : String) : Prop := name ≠ "" ∧ '.' ∉ name.toList

namespace RelationDeclaration

mutual

/-- A relation and all relations inside it, each with the names on the way to it. -/
def located (outer : List String) :
    RelationDeclaration → List (List String × RelationDeclaration)
  | .mk name fields relations =>
    (outer ++ [name], .mk name fields relations) :: locatedAll (outer ++ [name]) relations

def locatedAll (outer : List String) :
    List RelationDeclaration → List (List String × RelationDeclaration)
  | [] => []
  | relation :: rest => located outer relation ++ locatedAll outer rest

end

theorem locatedAll_eq (outer : List String) (relations : List RelationDeclaration) :
    locatedAll outer relations = relations.flatMap (located outer) := by
  induction relations with
  | nil => rfl
  | cons relation rest ih => rw [locatedAll, ih, List.flatMap_cons]

/-- The names of the fields and of the relations inside. -/
def memberNames (relation : RelationDeclaration) : List String :=
  relation.fields.map FieldDeclaration.name ++ relation.relations.map RelationDeclaration.name

/-- What is asked of every relation of a declaration. -/
structure IsSound (relation : RelationDeclaration) : Prop where
  named : IsMemberName relation.name
  fieldsNamed : ∀ field ∈ relation.fields, IsMemberName field.name
  distinct : relation.memberNames.Nodup
  ordinal : ∀ field ∈ relation.fields, field.isOrdinal = true →
    field.isVector = false ∧ (field.type = .long ∨ field.type = .datetime)
  single : (relation.fields.filter FieldDeclaration.isOrdinal).length ≤ 1

/-- A relation has one ordinal field at most. -/
theorem IsSound.eq_of_isOrdinal {relation : RelationDeclaration} (sound : relation.IsSound)
    {field field' : FieldDeclaration} (member : field ∈ relation.fields)
    (isOrdinal : field.isOrdinal = true) (member' : field' ∈ relation.fields)
    (isOrdinal' : field'.isOrdinal = true) : field = field' := by
  obtain ⟨place, inside, rfl⟩ := List.getElem_of_mem (List.mem_filter.2 ⟨member, isOrdinal⟩)
  obtain ⟨place', inside', rfl⟩ := List.getElem_of_mem (List.mem_filter.2 ⟨member', isOrdinal'⟩)
  have single := sound.single
  obtain rfl : place = place' := by omega
  rfl

/-- The path of a relation and those of its fields. -/
def ownPaths (segments : List String) (relation : RelationDeclaration) : List Path :=
  .relation segments :: relation.fields.map (Schema.fieldPath segments)

/-- The paths of a declaration: each relation is followed by its fields and then by the relations
inside it. -/
def listing (outer : List String) (declaration : RelationDeclaration) : List Path :=
  (declaration.located outer).flatMap fun (segments, relation) => relation.ownPaths segments

variable {outer segments : List String} {inner : RelationDeclaration} {name : String}
  {fields : List FieldDeclaration} {relations : List RelationDeclaration}

theorem mem_located : (segments, inner) ∈ (mk name fields relations).located outer ↔
    (segments = outer ++ [name] ∧ inner = mk name fields relations) ∨
      ∃ relation ∈ relations, (segments, inner) ∈ relation.located (outer ++ [name]) := by
  rw [located, locatedAll_eq, List.mem_cons, List.mem_flatMap, Prod.mk.injEq]

theorem listing_mk : (mk name fields relations).listing outer =
    (mk name fields relations).ownPaths (outer ++ [name]) ++
      relations.flatMap (·.listing (outer ++ [name])) := by
  rw [listing, located, locatedAll_eq, List.flatMap_cons, List.flatMap_assoc]
  rfl

/-- Every relation of the declaration is sound. -/
def IsAccepted (declaration : RelationDeclaration) : Prop :=
  ∀ segments relation, (segments, relation) ∈ declaration.located [] → relation.IsSound

end RelationDeclaration

namespace Schema

/-! ### What is checked -/

theorem checkName_eq_ok {name : String} : checkName name = .ok () ↔ IsMemberName name := by
  rw [checkName, IsMemberName]
  by_cases bad : (name.isEmpty || name.toList.contains '.') = true
  · rw [if_pos bad]
    refine iff_of_false nofun fun ⟨filled, dotless⟩ => ?_
    simp [filled, dotless] at bad
  · rw [if_neg bad]
    exact iff_of_true rfl (by simpa using bad)

theorem checkDistinct_eq_ok {relation : String} {seen names : List String} :
    checkDistinct relation seen names = .ok () ↔
      names.Nodup ∧ ∀ name ∈ names, name ∉ seen := by
  induction names generalizing seen with
  | nil => exact iff_of_true rfl ⟨.nil, List.forall_mem_nil _⟩
  | cons name rest ih =>
    rw [checkDistinct, List.nodup_cons, List.forall_mem_cons]
    by_cases known : name ∈ seen
    · rw [if_pos (List.contains_iff_mem.2 known)]
      exact iff_of_false nofun fun fresh => fresh.2.1 known
    · rw [if_neg (by simpa using known), ih]
      constructor
      · rintro ⟨distinct, fresh⟩
        refine ⟨⟨fun again => fresh name again List.mem_cons_self, distinct⟩, known, ?_⟩
        exact fun other listed => fun old => fresh other listed (List.mem_cons_of_mem _ old)
      · rintro ⟨⟨once, distinct⟩, -, fresh⟩
        refine ⟨distinct, fun other listed old => ?_⟩
        rcases List.mem_cons.1 old with rfl | old
        · exact once listed
        · exact fresh other listed old

/-- An ordinal field has to be the first one of its relation, and a scalar that tells a time. -/
theorem fieldPaths_cons_eq_ok {owner : List String} {ordinal : Option Path}
    {field : FieldDeclaration} {rest : List FieldDeclaration} {paths : List Path} :
    fieldPaths owner ordinal (field :: rest) = .ok paths ↔
      IsMemberName field.name ∧
      (field.isOrdinal = true → ordinal = none ∧ field.isVector = false ∧
        (field.type = .long ∨ field.type = .datetime)) ∧
      ∃ others, fieldPaths owner (if field.isOrdinal then some (fieldPath owner field) else ordinal)
        rest = .ok others ∧ fieldPath owner field :: others = paths := by
  have named : (∃ checked, checkName field.name = .ok checked) ↔ IsMemberName field.name := by
    rw [← checkName_eq_ok]
    exact ⟨fun ⟨_, checked⟩ => checked, fun checked => ⟨(), checked⟩⟩
  rw [fieldPaths, bind_eq_ok, exists_and_right, named]
  refine and_congr_right fun _ => ?_
  cases isOrdinal : field.isOrdinal with
  | false => simp
  | true =>
    have scalar : (field.isVector || !(field.type == .long || field.type == .datetime)) = false ↔
        field.isVector = false ∧ (field.type = .long ∨ field.type = .datetime) := by
      simp [or_iff_not_imp_left]
    by_cases unfit : (field.isVector || !(field.type == .long || field.type == .datetime)) = true
    · rw [if_pos rfl, if_pos unfit]
      refine iff_of_false nofun fun ⟨fits, _⟩ => ?_
      rw [← scalar, unfit] at fits
      cases (fits rfl).2
    · have fits := scalar.1 (Bool.eq_false_iff.2 unfit)
      rw [if_pos rfl, if_neg unfit]
      cases ordinal with
      | none => simp [fits]
      | some first => exact iff_of_false nofun fun ⟨alone, _⟩ => nomatch (alone rfl).1

theorem fieldPaths_eq_ok {owner : List String} {ordinal : Option Path}
    {fields : List FieldDeclaration} {paths : List Path} :
    fieldPaths owner ordinal fields = .ok paths ↔
      (∀ field ∈ fields, IsMemberName field.name) ∧
      (∀ field ∈ fields, field.isOrdinal = true →
        field.isVector = false ∧ (field.type = .long ∨ field.type = .datetime)) ∧
      ordinal.toList.length + (fields.filter FieldDeclaration.isOrdinal).length ≤ 1 ∧
      fields.map (fieldPath owner) = paths := by
  induction fields generalizing ordinal paths with
  | nil => cases ordinal <;> simp [fieldPaths]
  | cons field rest ih =>
    rw [fieldPaths_cons_eq_ok, List.forall_mem_cons, List.forall_mem_cons, List.map_cons]
    simp only [ih, List.filter_cons]
    cases isOrdinal : field.isOrdinal with
    | false =>
      simp only [Bool.false_eq_true, false_imp_iff, true_and, if_false]
      constructor
      · rintro ⟨named, _, ⟨names, fit, single, rfl⟩, rfl⟩
        exact ⟨⟨named, names⟩, fit, single, rfl⟩
      · rintro ⟨⟨named, names⟩, fit, single, rfl⟩
        exact ⟨named, _, ⟨names, fit, single, rfl⟩, rfl⟩
    | true =>
      simp only [true_imp_iff, if_true, List.length_cons, Option.toList_some, List.length_nil]
      constructor
      · rintro ⟨named, ⟨rfl, fits⟩, _, ⟨names, fit, single, rfl⟩, rfl⟩
        refine ⟨⟨named, names⟩, ⟨fits, fit⟩, ?_, rfl⟩
        rw [Option.toList_none, List.length_nil]
        omega
      · rintro ⟨⟨named, names⟩, ⟨fits, fit⟩, single, rfl⟩
        have first : ordinal = none := by
          rw [← Option.toList_eq_nil_iff, ← List.length_eq_zero_iff]
          omega
        refine ⟨named, ⟨first, fits⟩, _, ⟨names, fit, ?_, rfl⟩, rfl⟩
        omega

/-! ### What is listed -/

theorem isSound_iff {segments : List String} {name : String} {fields : List FieldDeclaration}
    {relations : List RelationDeclaration} :
    (RelationDeclaration.mk name fields relations).IsSound ↔
      checkName name = .ok () ∧
      checkDistinct (".".intercalate segments) []
        (fields.map FieldDeclaration.name ++ relations.map RelationDeclaration.name) = .ok () ∧
      fieldPaths segments none fields = .ok (fields.map (fieldPath segments)) := by
  rw [checkName_eq_ok, checkDistinct_eq_ok, fieldPaths_eq_ok, Option.toList_none, List.length_nil,
    Nat.zero_add]
  constructor
  · intro sound
    exact ⟨sound.named, ⟨sound.distinct, fun _ _ => List.not_mem_nil⟩, sound.fieldsNamed,
      sound.ordinal, sound.single, rfl⟩
  · rintro ⟨named, ⟨distinct, -⟩, fieldsNamed, ordinal, single, -⟩
    exact ⟨named, fieldsNamed, distinct, ordinal, single⟩

theorem declaredPathsOfAll_eq_ok {outer : List String} {relations : List RelationDeclaration}
    (each : ∀ relation ∈ relations, ∀ paths, declaredPaths outer relation = .ok paths ↔
      (∀ segments inner, (segments, inner) ∈ relation.located outer → inner.IsSound) ∧
        relation.listing outer = paths) (paths : List Path) :
    declaredPathsOfAll outer relations = .ok paths ↔
      (∀ relation ∈ relations, ∀ segments inner, (segments, inner) ∈ relation.located outer →
        inner.IsSound) ∧ relations.flatMap (·.listing outer) = paths := by
  induction relations generalizing paths with
  | nil => simp [declaredPathsOfAll]
  | cons relation rest ih =>
    obtain ⟨first, others⟩ := List.forall_mem_cons.1 each
    simp only [declaredPathsOfAll, bind_eq_ok, pure_eq_ok, first, ih others, List.forall_mem_cons,
      List.flatMap_cons]
    constructor
    · rintro ⟨_, ⟨sound, rfl⟩, _, ⟨sounds, rfl⟩, rfl⟩
      exact ⟨⟨sound, sounds⟩, rfl⟩
    · rintro ⟨⟨sound, sounds⟩, rfl⟩
      exact ⟨_, ⟨sound, rfl⟩, _, ⟨sounds, rfl⟩, rfl⟩

/-- A declaration adds its listing, if all relations in it are sound. -/
theorem declaredPaths_eq_ok (declaration : RelationDeclaration) :
    ∀ outer paths, declaredPaths outer declaration = .ok paths ↔
      (∀ segments inner, (segments, inner) ∈ declaration.located outer → inner.IsSound) ∧
        declaration.listing outer = paths := by
  induction declaration using RelationDeclaration.byRelations with
  | node name fields relations ih =>
    intro outer paths
    have inside := declaredPathsOfAll_eq_ok fun relation member =>
      ih relation member (outer ++ [name])
    have shape : (RelationDeclaration.mk name fields relations).listing outer = _ :=
      RelationDeclaration.listing_mk
    simp only [declaredPaths, bind_eq_ok, pure_eq_ok, inside]
    constructor
    · rintro ⟨_, named, _, distinct, own, isOwn, _, ⟨sounds, rfl⟩, rfl⟩
      obtain rfl := (fieldPaths_eq_ok.1 isOwn).2.2.2
      refine ⟨fun segments inner listed => ?_, shape⟩
      rcases RelationDeclaration.mem_located.1 listed with ⟨rfl, rfl⟩ | ⟨relation, member, listed⟩
      · exact isSound_iff.2 ⟨named, distinct, isOwn⟩
      · exact sounds relation member segments inner listed
    · rintro ⟨sound, rfl⟩
      have here := sound _ _ (RelationDeclaration.mem_located.2 (.inl ⟨rfl, rfl⟩))
      obtain ⟨named, distinct, isOwn⟩ := isSound_iff.1 here
      refine ⟨_, named, _, distinct, _, isOwn, _, ⟨?_, rfl⟩, shape.symm⟩
      intro relation member segments inner listed
      exact sound _ _ (RelationDeclaration.mem_located.2 (.inr ⟨relation, member, listed⟩))

variable {declaration : RelationDeclaration} {schema : Schema}

theorem ofDeclaration_eq_ok : ofDeclaration declaration = .ok schema ↔
    declaration.IsAccepted ∧ schema = ⟨.relation [declaration.name], declaration.listing []⟩ := by
  simp only [ofDeclaration, bind_eq_ok, pure_eq_ok, declaredPaths_eq_ok]
  constructor
  · rintro ⟨_, ⟨accepted, rfl⟩, rfl⟩
    exact ⟨accepted, rfl⟩
  · rintro ⟨accepted, rfl⟩
    exact ⟨_, ⟨accepted, rfl⟩, rfl⟩

end Schema

/-! ### Places in a declaration -/

namespace RelationDeclaration

variable {declaration inner : RelationDeclaration} {outer segments : List String} {path : Path}

theorem mem_listing : path ∈ declaration.listing outer ↔
    ∃ segments inner, (segments, inner) ∈ declaration.located outer ∧
      (path = .relation segments ∨
        ∃ field ∈ inner.fields, Schema.fieldPath segments field = path) := by
  simp [listing, ownPaths]

theorem prefix_of_located (declaration : RelationDeclaration) : ∀ outer segments inner,
    (segments, inner) ∈ declaration.located outer → outer ++ [declaration.name] <+: segments := by
  induction declaration using RelationDeclaration.byRelations with
  | node name fields relations ih =>
    intro outer segments inner listed
    rcases mem_located.1 listed with ⟨rfl, -⟩ | ⟨relation, member, listed⟩
    · exact List.prefix_refl _
    · exact (List.prefix_append _ _).trans (ih relation member _ _ _ listed)

/-- The relations around a relation are declared as well. -/
theorem located_of_prefix (declaration : RelationDeclaration) : ∀ outer segments inner,
    (segments, inner) ∈ declaration.located outer → ∀ words, words ≠ [] →
      outer ++ words <+: segments →
        ∃ around, (outer ++ words, around) ∈ declaration.located outer := by
  induction declaration using RelationDeclaration.byRelations with
  | node name fields relations ih =>
    intro outer segments inner listed words nonempty above
    obtain ⟨first, others, rfl⟩ := List.exists_cons_of_ne_nil nonempty
    have start : outer ++ [name] <+: segments := prefix_of_located _ _ _ _ listed
    have same : first = name := by
      have both := List.prefix_of_prefix_length_le start
        ((List.prefix_append (outer ++ [first]) others).trans (by simpa using above)) (by simp)
      simpa using (both.eq_of_length (by simp)).symm
    subst same
    -- the first word is the relation itself, more words lead into one of its relations
    by_cases last : others = []
    · subst last
      exact ⟨_, mem_located.2 (.inl ⟨rfl, rfl⟩)⟩
    · rcases mem_located.1 listed with ⟨rfl, -⟩ | ⟨relation, member, listed⟩
      · exact absurd above.length_le (by simpa using last)
      · have below : outer ++ [first] ++ others <+: segments := by simpa using above
        obtain ⟨around, found⟩ := ih relation member _ _ _ listed others last below
        refine ⟨around, mem_located.2 (.inr ⟨relation, member, ?_⟩)⟩
        simpa using found

theorem isMemberName_of_located (declaration : RelationDeclaration) : ∀ outer,
    (∀ name ∈ outer, IsMemberName name) →
    (∀ segments inner, (segments, inner) ∈ declaration.located outer → inner.IsSound) →
    ∀ segments inner, (segments, inner) ∈ declaration.located outer →
      ∀ name ∈ segments, IsMemberName name := by
  induction declaration using RelationDeclaration.byRelations with
  | node name fields relations ih =>
    intro outer around sound segments inner listed
    have here := (sound _ _ (mem_located.2 (.inl ⟨rfl, rfl⟩))).named
    have upTo : ∀ found ∈ outer ++ [name], IsMemberName found := by
      simpa [or_imp, forall_and] using ⟨around, here⟩
    rcases mem_located.1 listed with ⟨rfl, -⟩ | ⟨relation, member, listed⟩
    · exact upTo
    · exact ih relation member _ upTo
        (fun segments inner listed => sound _ _ (mem_located.2 (.inr ⟨relation, member, listed⟩)))
        _ _ listed

theorem prefix_of_listing (listed : path ∈ declaration.listing outer) :
    outer ++ [declaration.name] <+: path.segments := by
  obtain ⟨segments, inner, located, rfl | ⟨field, _, rfl⟩⟩ := mem_listing.1 listed
  · exact prefix_of_located _ _ _ _ located
  · exact (prefix_of_located _ _ _ _ located).trans (List.prefix_append _ _)

/-- Different members have different names, so no two paths agree. -/
theorem nodup_listing (declaration : RelationDeclaration) : ∀ outer,
    (∀ segments inner, (segments, inner) ∈ declaration.located outer → inner.IsSound) →
      ((declaration.listing outer).map Path.segments).Nodup := by
  induction declaration using RelationDeclaration.byRelations with
  | node name fields relations ih =>
    intro outer sound
    have here := sound _ _ (mem_located.2 (.inl ⟨rfl, rfl⟩))
    obtain ⟨fieldsDistinct, relationsDistinct, apart⟩ := List.nodup_append.1 here.distinct
    have below : ∀ relation ∈ relations,
        ∀ segments ∈ (relation.listing (outer ++ [name])).map Path.segments,
          outer ++ [name] ++ [relation.name] <+: segments := fun relation _ =>
      List.forall_mem_map.2 fun path => prefix_of_listing
    rw [listing_mk, ownPaths, List.cons_append, List.map_cons, List.map_append, List.map_flatMap,
      List.nodup_cons, List.nodup_append, List.nodup_flatMap, List.map_map]
    -- the relation apart from its members, fields from fields, each relation's listing by itself,
    -- these listings from each other, and fields from them
    refine ⟨?_, ?_, ⟨?_, ?_⟩, ?_⟩
    · intro again
      rcases List.mem_append.1 again with again | again
      · obtain ⟨field, -, same⟩ := List.mem_map.1 again
        simp [Schema.fieldPath, Path.segments] at same
      · obtain ⟨relation, member, again⟩ := List.mem_flatMap.1 again
        have longer := (below relation member _ again).length_le
        simp [Path.segments] at longer
    · refine (List.nodup_map_iff_inj_on (List.Nodup.of_map _ fieldsDistinct)).2 ?_
      intro field member field' member' same
      have sameName : field.name = field'.name := by
        simpa [Schema.fieldPath, Path.segments] using same
      exact List.inj_on_of_nodup_map fieldsDistinct member member' sameName
    · intro relation member
      exact ih relation member _ fun segments inner listed =>
        sound _ _ (mem_located.2 (.inr ⟨relation, member, listed⟩))
    · refine (List.pairwise_map.1 relationsDistinct).imp_of_mem ?_
      intro relation relation' member member' different segments first second
      have both := List.prefix_of_prefix_length_le (below relation member segments first)
        (below relation' member' segments second) (by simp)
      exact different (by simpa using both.eq_of_length (by simp))
    · intro segments ofField segments' ofRelation same
      obtain ⟨field, member, rfl⟩ := List.mem_map.1 ofField
      obtain ⟨relation, member', inside⟩ := List.mem_flatMap.1 ofRelation
      have start := below relation member' segments' inside
      rw [← same] at start
      have whole := start.eq_of_length_le (by simp [Schema.fieldPath, Path.segments])
      refine apart field.name (List.mem_map_of_mem member) relation.name
        (List.mem_map_of_mem member') ?_
      simpa [Schema.fieldPath, Path.segments] using whole.symm

/-- The relations of a listing are those of the declaration. -/
theorem filter_listing (declaration : RelationDeclaration) (outer : List String) :
    (declaration.listing outer).filter Path.isRelation =
      (declaration.located outer).map fun found => .relation found.1 := by
  have own : ∀ found : List String × RelationDeclaration,
      (found.2.ownPaths found.1).filter Path.isRelation = [.relation found.1] := by
    intro found
    simp [ownPaths, Schema.fieldPath, Path.isRelation, List.filter_cons]
  rw [listing, List.filter_flatMap, List.map_eq_flatMap]
  exact List.flatMap_congr fun found _ => own found

/-- There is one relation at a place. -/
theorem eq_of_located
    (sound : ∀ segments inner, (segments, inner) ∈ declaration.located outer → inner.IsSound)
    {inner' : RelationDeclaration} (located : (segments, inner) ∈ declaration.located outer)
    (located' : (segments, inner') ∈ declaration.located outer) : inner = inner' := by
  have nodup := ((nodup_listing declaration outer sound).of_map _).filter Path.isRelation
  rw [filter_listing] at nodup
  exact congrArg Prod.snd (List.inj_on_of_nodup_map nodup located located' rfl)

theorem isMemberName_of_listing (accepted : declaration.IsAccepted)
    (listed : path ∈ declaration.listing []) :
    path.segments ≠ [] ∧ ∀ name ∈ path.segments, IsMemberName name := by
  refine ⟨?_, ?_⟩
  · intro absent
    have longer := (prefix_of_listing listed).length_le
    simp [absent] at longer
  · obtain ⟨segments, inner, located, shape⟩ := mem_listing.1 listed
    have names :=
      isMemberName_of_located declaration [] (List.forall_mem_nil _) accepted _ _ located
    rcases shape with rfl | ⟨field, member, rfl⟩
    · exact names
    · have named := (accepted _ _ located).fieldsNamed field member
      simpa [Schema.fieldPath, Path.segments, or_imp, forall_and] using ⟨names, named⟩

end RelationDeclaration

/-! ### Schemas -/

namespace Schema

variable {declaration : RelationDeclaration} {schema : Schema} {path path' : Path}

theorem segments_ne_nil (built : ofDeclaration declaration = .ok schema)
    (listed : path ∈ schema.paths) : path.segments ≠ [] := by
  obtain ⟨accepted, rfl⟩ := ofDeclaration_eq_ok.1 built
  exact (RelationDeclaration.isMemberName_of_listing accepted listed).1

theorem dotless_of_mem (built : ofDeclaration declaration = .ok schema)
    (listed : path ∈ schema.paths) {name : String} (member : name ∈ path.segments) :
    '.' ∉ name.toList := by
  obtain ⟨accepted, rfl⟩ := ofDeclaration_eq_ok.1 built
  exact ((RelationDeclaration.isMemberName_of_listing accepted listed).2 name member).2

theorem nameWords_dotted (built : ofDeclaration declaration = .ok schema)
    (listed : path ∈ schema.paths) : nameWords path.dotted = path.segments :=
  nameWords_intercalate (segments_ne_nil built listed) fun _ => dotless_of_mem built listed

/-- Different paths have different names. -/
theorem eq_of_segments (built : ofDeclaration declaration = .ok schema)
    (listed : path ∈ schema.paths) (listed' : path' ∈ schema.paths)
    (same : path.segments = path'.segments) : path = path' := by
  obtain ⟨accepted, rfl⟩ := ofDeclaration_eq_ok.1 built
  exact List.inj_on_of_nodup_map (RelationDeclaration.nodup_listing declaration [] accepted)
    listed listed' same

theorem eq_of_dotted (built : ofDeclaration declaration = .ok schema)
    (listed : path ∈ schema.paths) (listed' : path' ∈ schema.paths)
    (same : path.dotted = path'.dotted) : path = path' := by
  apply eq_of_segments built listed listed'
  rw [← nameWords_dotted built listed, ← nameWords_dotted built listed', same]

theorem nodup_paths (built : ofDeclaration declaration = .ok schema) : schema.paths.Nodup := by
  obtain ⟨accepted, rfl⟩ := ofDeclaration_eq_ok.1 built
  exact .of_map _ (RelationDeclaration.nodup_listing declaration [] accepted)

theorem lookup?_eq_some (built : ofDeclaration declaration = .ok schema) {name : String} :
    schema.lookup? name = some path ↔ path ∈ schema.paths ∧ path.dotted = name := by
  constructor
  · intro found
    exact ⟨List.mem_of_find?_eq_some found, by simpa using List.find?_some found⟩
  · rintro ⟨listed, rfl⟩
    cases found : schema.lookup? path.dotted with
    | none => simpa using List.find?_eq_none.1 found path listed
    | some other =>
      have same : other.dotted = path.dotted := by simpa using List.find?_some found
      rw [eq_of_dotted built (List.mem_of_find?_eq_some found) listed same]

/-! ### What a name means -/

variable {name : String}

theorem mem_of_lookup? (found : schema.lookup? name = some path) : path ∈ schema.paths :=
  List.mem_of_find?_eq_some found

theorem mem_of_candidates (found : path ∈ schema.candidates name) : path ∈ schema.paths := by
  unfold candidates at found
  dsimp only at found
  split at found
  · exact (List.mem_filter.1 found).1
  · obtain ⟨relation, -, looked⟩ := List.mem_filterMap.1 found
    exact mem_of_lookup? looked

/-- A name means a path of the schema. -/
theorem mem_of_resolve (found : schema.resolve name = .ok path) : path ∈ schema.paths := by
  unfold resolve at found
  dsimp only at found
  split at found
  · cases found
    exact mem_of_lookup? ‹_›
  · split at found
    · cases found
      apply mem_of_candidates
      rw [‹schema.candidates _ = _›]
      exact List.mem_singleton_self _
    · split at found
      · cases found
        exact mem_of_lookup? ‹_›
      · cases found
    · cases found

/-! ### Relations around a path -/

/-- The relations around a path are declared as well. -/
theorem relation_mem_of_prefix (built : ofDeclaration declaration = .ok schema)
    (listed : path ∈ schema.paths) {words : List String} (nonempty : words ≠ [])
    (above : words <+: path.owner) : .relation words ∈ schema.paths := by
  obtain ⟨-, rfl⟩ := ofDeclaration_eq_ok.1 built
  obtain ⟨segments, inner, located, shape⟩ := RelationDeclaration.mem_listing.1 listed
  have here : path.owner = segments := by
    rcases shape with rfl | ⟨field, -, rfl⟩ <;> rfl
  rw [here] at above
  obtain ⟨around, found⟩ :=
    RelationDeclaration.located_of_prefix declaration [] _ _ located words nonempty above
  exact RelationDeclaration.mem_listing.2 ⟨_, around, found, .inl rfl⟩

end Schema

end EventQuery
