import EventQuery.Proofs.Declarations
import EventQuery.Proofs.Points
import Mathlib.Data.List.Pairwise

/-!
The ordinal fields of a schema. Declaring a relation a second ordinal field is an error, and so is
an ordinal field that is no scalar `LONG` or `DATETIME`. So every relation has one such field at
most, and who climbs from a relation towards the root meets the nearest one first.
-/
namespace EventQuery

open Outcome
open Reading (nameWords nameWords_intercalate nameWords_single)

namespace Path

/-- No relation on the way to the path has a point in its name. -/
def IsDotless (path : Path) : Prop := ∀ name ∈ path.owner, '.' ∉ name.toList

/-- If the path is an ordinal field, it is a scalar that tells a time. -/
def IsSoundOrdinal (path : Path) : Prop :=
  path.isOrdinal = true →
    ∃ owner name type, path = .field owner name ⟨type, false, true⟩ ∧
      (type = .long ∨ type = .datetime)

/-- Two paths are not ordinal fields of one relation. -/
def OrdinalsApart (a b : Path) : Prop :=
  a.isOrdinal = true → b.isOrdinal = true → a.owner ≠ b.owner

instance : Std.Symm OrdinalsApart :=
  ⟨fun _ _ apart first second same => apart second first same.symm⟩

end Path

namespace Schema

/-- What a declaration contributes: everything lies in its relation or below, ordinal fields are
sound, and there is one for each relation at most. -/
structure Contributed (segments : List String) (paths : List Path) : Prop where
  inside : ∀ path ∈ paths, segments <+: path.owner
  sound : ∀ path ∈ paths, path.IsSoundOrdinal
  apart : paths.Pairwise Path.OrdinalsApart

/-! ### Built schemas -/

/-- The path is an ordinal field of the schema. -/
def IsOrdinal (schema : Schema) (ordinal : Path) : Prop :=
  ordinal ∈ schema.paths ∧ ordinal.isOrdinal = true

variable {declaration : RelationDeclaration} {schema : Schema} {ordinal : Path}

/-- An ordinal field is one that its relation declares. -/
theorem IsOrdinal.exists_field (isOrdinal : schema.IsOrdinal ordinal)
    (built : ofDeclaration declaration = .ok schema) :
    ∃ relation, (ordinal.owner, relation) ∈ declaration.located [] ∧
      ∃ field ∈ relation.fields, field.isOrdinal = true ∧
        fieldPath ordinal.owner field = ordinal := by
  obtain ⟨-, rfl⟩ := ofDeclaration_eq_ok.1 built
  obtain ⟨segments, relation, located, rfl | ⟨field, member, rfl⟩⟩ :=
    RelationDeclaration.mem_listing.1 isOrdinal.1
  · cases isOrdinal.2
  · exact ⟨relation, located, field, member, isOrdinal.2, rfl⟩

theorem contributed (built : ofDeclaration declaration = .ok schema) :
    Contributed [declaration.name] schema.paths := by
  have field := fun {ordinal} (isOrdinal : schema.IsOrdinal ordinal) => isOrdinal.exists_field built
  have nodup := nodup_paths built
  obtain ⟨accepted, rfl⟩ := ofDeclaration_eq_ok.1 built
  refine ⟨fun path listed => ?_, fun path listed isOrdinal => ?_, ?_⟩
  · obtain ⟨segments, relation, located, rfl | ⟨_, _, rfl⟩⟩ :=
      RelationDeclaration.mem_listing.1 listed
    all_goals exact RelationDeclaration.prefix_of_located _ _ _ _ located
  · obtain ⟨relation, located, field, member, declared, same⟩ := field ⟨listed, isOrdinal⟩
    obtain ⟨scalar, type⟩ := (accepted _ _ located).ordinal field member declared
    exact ⟨path.owner, field.name, field.type, by rw [← scalar, ← declared]; exact same.symm, type⟩
  · -- two in one relation would be two fields of one declaration, which has a single ordinal
    refine nodup.pairwise_of_forall_ne fun path listed path' listed' different => ?_
    intro isOrdinal isOrdinal' same
    obtain ⟨relation, located, first, member, declared, shape⟩ := field ⟨listed, isOrdinal⟩
    obtain ⟨relation', located', second, member', declared', shape'⟩ := field ⟨listed', isOrdinal'⟩
    rw [← same] at located' shape'
    obtain rfl := RelationDeclaration.eq_of_located accepted located located'
    have both := (accepted _ _ located).eq_of_isOrdinal member declared member' declared'
    exact different (by rw [← shape, ← shape', both])

namespace IsOrdinal

theorem owner_ne_nil (isOrdinal : schema.IsOrdinal ordinal)
    (built : ofDeclaration declaration = .ok schema) : ordinal.owner ≠ [] := by
  have longer := ((contributed built).inside ordinal isOrdinal.1).length_le
  intro absent
  rw [absent] at longer
  cases longer

/-- A relation has one ordinal field at most. -/
theorem eq_of_owner {ordinal' : Path} (isOrdinal : schema.IsOrdinal ordinal)
    (isOrdinal' : schema.IsOrdinal ordinal') (built : ofDeclaration declaration = .ok schema)
    (same : ordinal.owner = ordinal'.owner) : ordinal = ordinal' := by
  by_contra different
  exact (contributed built).apart.forall isOrdinal.1 isOrdinal'.1 different isOrdinal.2
    isOrdinal'.2 same

end IsOrdinal

theorem isDotless_of_mem (built : ofDeclaration declaration = .ok schema) {path : Path}
    (listed : path ∈ schema.paths) : path.IsDotless := by
  intro name member
  refine dotless_of_mem built listed ?_
  cases path with
  | relation => exact member
  | field => exact List.mem_append_left _ member

/-- A path without points in its names lies in the relation of an ordinal field exactly if their
relations have the same dotted name. -/
theorem IsOrdinal.eq_owner_iff_dotted (isOrdinal : schema.IsOrdinal ordinal)
    (built : ofDeclaration declaration = .ok schema) {path : Path} (dotless : path.IsDotless) :
    ordinal.home.dotted = path.home.dotted ↔ ordinal.owner = path.owner := by
  refine ⟨fun same => ?_, fun same => by rw [Path.home, Path.home, same]⟩
  have declared : ordinal.home ∈ schema.paths := relation_mem_of_prefix built isOrdinal.1
    (isOrdinal.owner_ne_nil built) (List.prefix_refl _)
  have words : nameWords path.home.dotted = ordinal.owner :=
    same ▸ nameWords_dotted built declared
  by_cases outside : path.owner = []
  · -- No relation is called by the empty name.
    have empty : path.home.dotted = "" := by rw [Path.dotted, Path.home, Path.segments, outside]; rfl
    rw [empty, nameWords_single (by decide)] at words
    obtain ⟨accepted, rfl⟩ := ofDeclaration_eq_ok.1 built
    have named := (RelationDeclaration.isMemberName_of_listing accepted declared).2 ""
      (words ▸ List.mem_singleton_self _ : "" ∈ ordinal.owner)
    exact absurd rfl named.1
  · rw [← words]
    exact nameWords_intercalate outside dotless

/-- The ordinal field of a path is the one in the relation with the dotted name of its relation. -/
theorem ordinalOf?_eq_some (built : ofDeclaration declaration = .ok schema) {path : Path} :
    schema.ordinalOf? path = some ordinal ↔
      schema.IsOrdinal ordinal ∧ ordinal.home.dotted = path.home.dotted := by
  constructor
  · intro found
    have holds := List.find?_some found
    simp only [Bool.and_eq_true, beq_iff_eq] at holds
    exact ⟨⟨List.mem_of_find?_eq_some found, holds.1⟩, holds.2⟩
  · rintro ⟨isOrdinal, same⟩
    cases found : schema.ordinalOf? path with
    | none =>
      have absent := List.find?_eq_none.1 found ordinal isOrdinal.1
      simp [isOrdinal.2, same] at absent
    | some other =>
      have holds := List.find?_some found
      simp only [Bool.and_eq_true, beq_iff_eq] at holds
      have isOther : schema.IsOrdinal other := ⟨List.mem_of_find?_eq_some found, holds.1⟩
      have together := (isOther.eq_owner_iff_dotted built (isDotless_of_mem built isOrdinal.1)).1
        (holds.2.trans same.symm)
      rw [isOther.eq_of_owner isOrdinal built together]

theorem ordinalOf?_eq_some_of_isDotless (built : ofDeclaration declaration = .ok schema)
    {path : Path} (dotless : path.IsDotless) :
    schema.ordinalOf? path = some ordinal ↔
      schema.IsOrdinal ordinal ∧ ordinal.owner = path.owner := by
  rw [ordinalOf?_eq_some built]
  exact and_congr_right fun isOrdinal => isOrdinal.eq_owner_iff_dotted built dotless

/-! ### The way up -/

/-- The climb from a relation towards the root, with the ordinal field that it ends at, if it meets
one. Nothing bounds its steps. -/
inductive Climbs (schema : Schema) : Path → Option Path → Prop where
  | found {relation ordinal} (timed : schema.ordinalOf? relation = some ordinal) :
    Climbs schema relation (some ordinal)
  | up {relation parent outcome} (untimed : schema.ordinalOf? relation = none)
    (around : relation.parent? = some parent) (rest : Climbs schema parent outcome) :
    Climbs schema relation outcome
  | out {relation} (untimed : schema.ordinalOf? relation = none)
    (outermost : relation.parent? = none) : Climbs schema relation none

/-- The ordinal field of the deepest relation that has one and is that of a path or contains it. -/
structure IsNearestOrdinal (schema : Schema) (start ordinal : Path) : Prop where
  isOrdinal : schema.IsOrdinal ordinal
  above : ordinal.isAncestorOf start = true
  deepest : ∀ other, schema.IsOrdinal other → other.isAncestorOf start = true →
    other.isAncestorOf ordinal = true

variable {start : Path} {outcome : Option Path}

/-- There is one nearest ordinal field at most. -/
theorem IsNearestOrdinal.eq {ordinal' : Path} (nearest : schema.IsNearestOrdinal start ordinal)
    (nearest' : schema.IsNearestOrdinal start ordinal')
    (built : ofDeclaration declaration = .ok schema) : ordinal = ordinal' := by
  have up := Path.isAncestorOf_iff.1 (nearest.deepest ordinal' nearest'.isOrdinal nearest'.above)
  have down := Path.isAncestorOf_iff.1 (nearest'.deepest ordinal nearest.isOrdinal nearest.above)
  exact nearest.isOrdinal.eq_of_owner nearest'.isOrdinal built
    (down.eq_of_length_le up.length_le)

/-- An ordinal field above a relation without one lies above its parent. -/
theorem IsOrdinal.above_parent (isOrdinal : schema.IsOrdinal ordinal)
    (built : ofDeclaration declaration = .ok schema) {segments : List String}
    (untimed : schema.ordinalOf? (.relation segments) = none)
    (above : ordinal.owner <+: segments) :
    1 < segments.length ∧ ordinal.owner <+: segments.dropLast := by
  have apart : ordinal.owner ≠ segments := fun same => by
    cases untimed.symm.trans ((ordinalOf?_eq_some built).2 ⟨isOrdinal, by rw [Path.home, same]; rfl⟩)
  obtain ⟨rest, rfl⟩ := above
  have more : rest ≠ [] := fun absent => apart (by rw [absent, List.append_nil])
  rw [List.dropLast_append_of_ne_nil more, List.length_append]
  have first := List.length_pos_iff.2 (isOrdinal.owner_ne_nil built)
  have second := List.length_pos_iff.2 more
  exact ⟨by omega, List.prefix_append _ _⟩

namespace Climbs

/-- The climb ends at the nearest ordinal field, or above all of them there is none. -/
theorem nearest_or_none (climbs : schema.Climbs start outcome)
    (built : ofDeclaration declaration = .ok schema) (isRelation : start.isRelation = true)
    (dotless : start.IsDotless) :
    match outcome with
    | some ordinal => schema.IsNearestOrdinal start ordinal
    | none => ∀ ordinal, schema.IsOrdinal ordinal → ordinal.isAncestorOf start = false := by
  induction climbs with
  | @found relation ordinal timed =>
    obtain ⟨isOrdinal, same⟩ := (ordinalOf?_eq_some_of_isDotless built dotless).1 timed
    refine ⟨isOrdinal, Path.isAncestorOf_iff.2 (same ▸ List.prefix_refl _), ?_⟩
    intro other _ above
    rw [Path.isAncestorOf_iff, same]
    exact Path.isAncestorOf_iff.1 above
  | @up relation parent outcome untimed around _ ih =>
    cases relation with
    | field => cases isRelation
    | relation segments =>
      simp only [Path.parent?, Option.ite_none_right_eq_some, Option.some.injEq] at around
      obtain ⟨_, rfl⟩ := around
      have same : ∀ ordinal, schema.IsOrdinal ordinal →
          (ordinal.isAncestorOf (.relation segments) = true ↔
            ordinal.isAncestorOf (.relation segments.dropLast) = true) := by
        intro ordinal isOrdinal
        rw [Path.isAncestorOf_iff, Path.isAncestorOf_iff]
        exact ⟨fun above => (isOrdinal.above_parent built untimed above).2,
          fun above => above.trans (List.dropLast_prefix _)⟩
      have ends := ih rfl fun name member => dotless name (List.dropLast_subset _ member)
      cases outcome with
      | some ordinal =>
        exact ⟨ends.isOrdinal, (same _ ends.isOrdinal).2 ends.above,
          fun other isOrdinal above => ends.deepest other isOrdinal ((same _ isOrdinal).1 above)⟩
      | none =>
        intro ordinal isOrdinal
        rw [Bool.eq_false_iff, Ne, same ordinal isOrdinal, ← Ne, ← Bool.eq_false_iff]
        exact ends ordinal isOrdinal
  | @out relation untimed outermost =>
    cases relation with
    | field => cases isRelation
    | relation segments =>
      simp only [Path.parent?, ite_eq_right_iff, reduceCtorEq, imp_false] at outermost
      intro ordinal isOrdinal
      rw [Bool.eq_false_iff]
      intro above
      exact outermost (isOrdinal.above_parent built untimed (Path.isAncestorOf_iff.1 above)).1

variable {path : Path}

/-- The climb from the relation of a path ends at an ordinal field exactly if this is the nearest
one. -/
theorem eq_some_iff (climbs : schema.Climbs path.home outcome)
    (built : ofDeclaration declaration = .ok schema) (dotless : path.IsDotless) :
    outcome = some ordinal ↔ schema.IsNearestOrdinal path ordinal := by
  have ends := climbs.nearest_or_none built rfl dotless
  cases outcome with
  | some found =>
    have nearest : schema.IsNearestOrdinal path found := ⟨ends.isOrdinal, ends.above, ends.deepest⟩
    rw [Option.some.injEq]
    constructor
    · rintro rfl
      exact nearest
    · exact fun nearest' => nearest.eq nearest' built
  | none =>
    refine iff_of_false nofun fun nearest => ?_
    cases nearest.above.symm.trans (ends ordinal nearest.isOrdinal)

theorem eq_none_iff (climbs : schema.Climbs path.home outcome)
    (built : ofDeclaration declaration = .ok schema) (dotless : path.IsDotless) :
    outcome = none ↔ ∀ ordinal, schema.IsOrdinal ordinal → ordinal.isAncestorOf path = false := by
  have ends := climbs.nearest_or_none built rfl dotless
  cases outcome with
  | none => exact iff_of_true rfl ends
  | some found =>
    refine iff_of_false nofun fun absent => ?_
    cases ends.above.symm.trans (absent found ends.isOrdinal)

end Climbs

end Schema

end EventQuery
