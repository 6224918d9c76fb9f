import EventQuery.Analysis.Axis
import EventQuery.Proofs.Outcome
import EventQuery.Proofs.Tree

/-!
Relations on one chain. The point of several parts is the lowest of their points: it lies
at or above some relation exactly if all of them do. So parts whose points rise keep
having a point, and it rises as well.
-/
namespace EventQuery

namespace Path

theorem isAncestorOf_iff {a b : Path} : a.isAncestorOf b = true ↔ a.owner <+: b.owner :=
  List.isPrefixOf_iff_prefix

theorem isAncestorOf_refl (path : Path) : path.isAncestorOf path = true :=
  isAncestorOf_iff.2 (List.prefix_refl path.owner)

theorem isAncestorOf_trans {a b c : Path} (first : a.isAncestorOf b = true)
    (second : b.isAncestorOf c = true) : a.isAncestorOf c = true :=
  isAncestorOf_iff.2 ((isAncestorOf_iff.1 first).trans (isAncestorOf_iff.1 second))

/-- The relations that contain a relation lie on one chain. -/
theorem isAncestorOf_or {a b c : Path} (first : a.isAncestorOf c = true)
    (second : b.isAncestorOf c = true) : a.isAncestorOf b = true ∨ b.isAncestorOf a = true := by
  rw [isAncestorOf_iff, isAncestorOf_iff] at *
  exact List.prefix_or_prefix_of_prefix first second

theorem areOffPath_eq_false {a b : Path} :
    a.areOffPath b = false ↔ a.isAncestorOf b = true ∨ b.isAncestorOf a = true := by
  simp only [areOffPath, Bool.and_eq_false_iff, Bool.not_eq_false']

/-- What is on one path with a relation is on one path with those that contain it. -/
theorem areOffPath_of_isAncestorOf {a b c : Path} (onPath : a.areOffPath b = false)
    (above : c.isAncestorOf b = true) : a.areOffPath c = false := by
  rw [areOffPath_eq_false] at *
  rcases onPath with below | below
  · exact isAncestorOf_or below above
  · exact .inr (isAncestorOf_trans above below)

@[simp] theorem isAncestorOf_home_left (a b : Path) : a.home.isAncestorOf b = a.isAncestorOf b :=
  rfl

/-- The deeper of two relations is at or above a third one exactly if both are. -/
theorem lowest?_isAncestorOf {a b c : Path} :
    (∃ lowest, a.lowest? b = some lowest ∧ lowest.isAncestorOf c = true) ↔
      a.isAncestorOf c = true ∧ b.isAncestorOf c = true := by
  unfold lowest?
  split
  case isTrue above =>
    simpa using fun below => isAncestorOf_trans above below
  case isFalse apart =>
    split
    case isTrue above =>
      simpa using fun below => isAncestorOf_trans above below
    case isFalse apart' =>
      simp only [reduceCtorEq, false_and, exists_false, false_iff]
      exact fun both => (isAncestorOf_or both.1 both.2).elim apart apart'

theorem isRelation_of_lowest? {a b lowest : Path} (found : a.lowest? b = some lowest) :
    lowest.isRelation = true := by
  unfold lowest? at found
  split at found
  case isTrue =>
    cases found
    rfl
  case isFalse =>
    split at found
    case isTrue =>
      cases found
      rfl
    case isFalse => cases found

theorem isRelation_of_parent? {path parent : Path} (found : path.parent? = some parent) :
    parent.isRelation = true := by
  cases path with
  | relation segments =>
    simp only [parent?] at found
    split at found
    case isTrue =>
      cases found
      rfl
    case isFalse => cases found
  | field owner name info =>
    cases found
    rfl

end Path

namespace Axis

open Outcome

theorem points_eq_map (nodes : List ValueExpr) :
    ValueExpr.points nodes = nodes.map fun node => (Expr.value node).point := by
  induction nodes with
  | nil => rfl
  | cons node rest ih => rw [ValueExpr.points, ih, List.map_cons, Expr.point]

/-- The first point is that of constants, or the relation of the second one, or contains it. -/
def AtOrAbove (point point' : Option Path) : Prop :=
  ∀ path, point = some path → ∃ path', point' = some path' ∧ path.isAncestorOf path' = true

namespace AtOrAbove

variable {a b c : Option Path}

theorem none : AtOrAbove none b := fun _ absent => by cases absent

theorem rfl : AtOrAbove a a := fun path same => ⟨path, same, path.isAncestorOf_refl⟩

theorem trans (first : AtOrAbove a b) (second : AtOrAbove b c) : AtOrAbove a c := by
  intro path same
  obtain ⟨path', same, above⟩ := first path same
  obtain ⟨path'', same, above'⟩ := second path' same
  exact ⟨path'', same, Path.isAncestorOf_trans above above'⟩

theorem some_iff {path : Path} :
    AtOrAbove (some path) b ↔ ∃ path', b = some path' ∧ path.isAncestorOf path' = true := by
  simp [AtOrAbove]

theorem none_right (above : AtOrAbove a Option.none) : a = Option.none := by
  cases a with
  | none => exact Eq.refl _
  | some path =>
    obtain ⟨_, absent, _⟩ := above path (Eq.refl _)
    cases absent

end AtOrAbove

/-- A part has a point, at or above another one. -/
def Within (point : Option Path) (part : Point) : Prop :=
  ∃ found, part = .ok found ∧ AtOrAbove found point

variable {span : Span} {lowest point : Option Path} {parts parts' : List Point}

theorem within_ok {found : Option Path} : Within point (.ok found) ↔ AtOrAbove found point := by
  simp [Within]

theorem not_within_error {cause : Diagnostic} : ¬Within point (.error cause) := by
  simp [Within]

private theorem lowest?_atOrAbove {a b : Path} :
    (∃ deeper, a.lowest? b = some deeper ∧ AtOrAbove (some deeper) point) ↔
      AtOrAbove (some a) point ∧ AtOrAbove (some b) point := by
  cases point with
  | none => simp [AtOrAbove.some_iff]
  | some path => simpa [AtOrAbove.some_iff] using Path.lowest?_isAncestorOf

/-- The lowest of several points is at or above another one exactly if all of them are. -/
theorem combineFrom_within :
    Within point (combineFrom span lowest parts) ↔
      AtOrAbove lowest point ∧ ∀ part ∈ parts, Within point part := by
  induction parts generalizing lowest with
  | nil =>
    simp only [combineFrom, within_ok, List.not_mem_nil, false_implies, implies_true, and_true]
  | cons part rest ih =>
    rw [List.forall_mem_cons, ← and_assoc]
    cases part with
    | error cause =>
      exact iff_of_false not_within_error fun within => not_within_error within.1.2
    | ok found =>
      rw [within_ok]
      cases lowest with
      | none =>
        have joined : Within point (combineFrom span none (.ok found :: rest)) ↔
            Within point (combineFrom span found rest) := by cases found <;> rfl
        rw [joined, ih, and_iff_right AtOrAbove.none]
      | some current =>
        cases found with
        | none =>
          rw [and_iff_left AtOrAbove.none]
          exact ih
        | some other =>
          rw [← lowest?_atOrAbove]
          simp only [combineFrom, bind, Except.bind]
          cases current.lowest? other with
          | none =>
            constructor
            · exact fun within => (not_within_error within).elim
            · rintro ⟨⟨_, absent, _⟩, _⟩
              cases absent
          | some deeper => simpa using ih

theorem combine_within :
    Within point (combine span parts) ↔ ∀ part ∈ parts, Within point part :=
  combineFrom_within.trans (and_iff_right AtOrAbove.none)

/-- The second part has a point if the first has, at or above it. -/
def Rises (part part' : Point) : Prop := ∀ point, part = .ok point → Within point part'

namespace Rises

theorem rfl {part : Point} : Rises part part := fun point found => ⟨point, found, .rfl⟩

theorem trans {part part' part'' : Point} (first : Rises part part')
    (second : Rises part' part'') : Rises part part'' := by
  intro point found
  obtain ⟨high, found, above⟩ := first point found
  obtain ⟨higher, found, above'⟩ := second high found
  exact ⟨higher, found, above'.trans above⟩

theorem of_eq {part part' : Point} (keeps : Refines Eq part part') : Rises part part' := by
  intro point found
  obtain ⟨_, found, same⟩ := keeps point found
  exact ⟨point, same ▸ found, .rfl⟩

end Rises

/-- Every part is at or above the lowest one. -/
theorem combine_rises_part {part : Point} (member : part ∈ parts) :
    Rises (combine span parts) part :=
  fun point found => combine_within.1 ⟨point, found, .rfl⟩ part member

/-- Parts whose points rise have a lowest point that rises. -/
theorem combine_rises (rise : List.Forall₂ Rises parts parts') :
    Rises (combine span parts) (combine span parts') := by
  intro point found
  refine combine_within.2 fun part' member => ?_
  obtain ⟨part, listed, rises⟩ := exists_of_mem_right rise member
  exact (combine_rises_part listed).trans rises point found

/-- Parts that keep their points keep the lowest one. -/
theorem combine_keeps (keep : List.Forall₂ (Refines Eq) parts parts') :
    Refines Eq (combine span parts) (combine span parts') := by
  intro point found
  have placed : ∀ part ∈ parts, Within point part :=
    fun part member => combine_rises_part member point found
  have same : parts' = parts := by
    clear found
    induction keep with
    | nil => rfl
    | cons first _ ih =>
      rw [List.forall_mem_cons] at placed
      obtain ⟨⟨high, rfl, _⟩, placed⟩ := placed
      obtain ⟨_, rfl, rfl⟩ := first high rfl
      rw [ih placed]
  exact ⟨point, same ▸ found, rfl⟩

/-- Parts without a point have none together. -/
theorem combine_none (absent : ∀ part ∈ parts, part = .ok none) :
    combine span parts = .ok none := by
  obtain ⟨low, found, above⟩ : Within none (combine span parts) :=
    combine_within.2 fun part member => ⟨none, absent part member, .rfl⟩
  rw [found, above.none_right]

/-- If a part has a point, it is one of the places. -/
def PointIn (places : Path → Prop) (part : Point) : Prop :=
  ∀ path, part = .ok (some path) → places path

/-- A part with a point has a relation for it. -/
abbrev OnRelation : Point → Prop := PointIn fun path => path.isRelation = true

theorem pointIn_combineFrom {places : Path → Prop}
    (closed : ∀ a b lowest, places a → places b → a.lowest? b = some lowest → places lowest)
    (start : PointIn places (.ok lowest)) (each : ∀ part ∈ parts, PointIn places part) :
    PointIn places (combineFrom span lowest parts) := by
  induction parts generalizing lowest with
  | nil => exact start
  | cons part rest ih =>
    rw [List.forall_mem_cons] at each
    cases part with
    | error cause => exact fun _ found => by cases found
    | ok found =>
      cases lowest with
      | none =>
        cases found with
        | none => exact ih start each.2
        | some other => exact ih each.1 each.2
      | some current =>
        cases found with
        | none => exact ih start each.2
        | some other =>
          simp only [combineFrom, bind, Except.bind]
          cases met : current.lowest? other with
          | none => exact fun _ found => by cases found
          | some deeper =>
            refine ih ?_ each.2
            rintro _ ⟨⟩
            exact closed current other deeper (start current rfl) (each.1 other rfl) met

end Axis

end EventQuery
