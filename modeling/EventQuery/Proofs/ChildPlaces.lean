import EventQuery.Expression.Children
import Mathlib.Data.List.Basic

/-!
The children of a node can be read and replaced one by one. A node is its frame, which is all it
says apart from its children, and the list of its children. A place holds one element of that
list, and to fill it sets this element and leaves the frame alone; so replacing a child obeys the
laws of a lens.
-/
namespace EventQuery

/-! ### Frames -/

/-- The node with fixed expressions in its places. -/
def BoolExpr.frame : BoolExpr → BoolExpr
  | constant span value => constant span value
  | binary span op _ _ => binary span op default default
  | not span _ => not span default
  | comparison span op _ _ => comparison span op default default
  | bounds span op _ _ _ => bounds span op default default default
  | nullTest span op _ => nullTest span op default
  | inList span _ candidates => inList span default (candidates.map fun _ => default)
  | inVector span _ _ => inVector span default default
  | wrapper span _ => wrapper span default
  | boundary span edge relation resolved => boundary span edge relation resolved
  | stepReference span step => stepReference span step

@[inherit_doc BoolExpr.frame]
def ValueExpr.frame : ValueExpr → ValueExpr
  | constant span value => constant span value
  | path span name resolved => path span name resolved
  | parameter span name type => parameter span name type
  | binary span op _ _ => binary span op default default
  | unary span sign _ => unary span sign default
  | cast span target _ => cast span target default
  | conversion span kind _ => conversion span kind default
  | quantum span taken _ zone timeZone => quantum span taken default zone timeZone
  | call span name arguments binding => call span name (arguments.map fun _ => default) binding
  | aggregation span op count _ condition scope quanta scopePath =>
    aggregation span op (count.map fun _ => default) default (condition.map fun _ => default)
      scope (quanta.map fun _ => default) scopePath
  | now span => now span

/-- What an expression says apart from its children: its kind, its operator, the names, types
and numbers in it, its span, what binding found out, and how many children of what kind it has. -/
def Expr.frame : Expr → Expr
  | bool node => bool node.frame
  | value node => value node.frame

private theorem value_injective : Function.Injective Expr.value := fun _ _ => Expr.value.inj

theorem BoolExpr.eq_of_frame {node node' : BoolExpr} (frames : node.frame = node'.frame)
    (children : node.children = node'.children) : node = node' := by
  cases node <;> cases node' <;>
    simp_all [frame, BoolExpr.children, value_injective.list_map.eq_iff]

theorem ValueExpr.eq_of_frame {node node' : ValueExpr} (frames : node.frame = node'.frame)
    (children : node.children = node'.children) : node = node' := by
  cases node <;> cases node' <;>
    simp_all [frame, ValueExpr.children, value_injective.list_map.eq_iff]
  -- the frames say which of the optional parts are there, so the children line up
  case aggregation.aggregation span op count target condition scope quanta scopePath
      span' op' count' target' condition' scope' quanta' scopePath' =>
    cases count <;> cases count' <;> cases condition <;> cases condition' <;> cases quanta <;>
      cases quanta' <;> simp_all

/-- The frame and the children are all there is. -/
theorem Expr.eq_of_frame {expr expr' : Expr} (frames : expr.frame = expr'.frame)
    (children : expr.children = expr'.children) : expr = expr' := by
  cases expr <;> cases expr' <;> simp only [frame, bool.injEq, value.injEq, reduceCtorEq] at frames
  · rw [BoolExpr.eq_of_frame frames children]
  · rw [ValueExpr.eq_of_frame frames children]

theorem Expr.kind_frame (expr : Expr) : expr.frame.kind = expr.kind := by
  cases expr with
  | bool node => cases node <;> rfl
  | value node => cases node <;> rfl

theorem Expr.span_frame (expr : Expr) : expr.frame.span = expr.span := by
  cases expr with
  | bool node => cases node <;> rfl
  | value node => cases node <;> rfl

/-! ### What stands in the places -/

private theorem occupants_mapIdx {node : Type} (filledWith : Nat → ValueExpr → node)
    (nodes : List ValueExpr) :
    (nodes.mapIdx fun index old => Place.value old (filledWith index)).map Place.occupant =
      nodes.map Expr.value := by
  apply List.ext_getElem?
  intro index
  simp [List.getElem?_mapIdx, Function.comp_def, Place.occupant]

theorem BoolExpr.occupants (node : BoolExpr) : node.places.map Place.occupant = node.children := by
  cases node with
  | inList span value candidates =>
    simp only [places, children, List.map_cons, occupants_mapIdx, Place.occupant]
  | _ => rfl

theorem ValueExpr.occupants (node : ValueExpr) :
    node.places.map Place.occupant = node.children := by
  cases node with
  | call span name arguments binding => simp only [places, children, occupants_mapIdx]
  | aggregation span op count target condition scope quanta scopePath =>
    simp [places, children, Place.occupant, Function.comp_def]
  | _ => rfl

theorem Place.occupant_map {node node' : Type} (wrap : node → node') (place : Place node) :
    (place.map wrap).occupant = place.occupant := by
  cases place <;> rfl

/-- Places and children are numbered alike. -/
theorem Expr.occupants (expr : Expr) : expr.places.map Place.occupant = expr.children := by
  cases expr with
  | bool node => simp [places, children, Function.comp_def, Place.occupant_map, ← node.occupants]
  | value node => simp [places, children, Function.comp_def, Place.occupant_map, ← node.occupants]

theorem Expr.occupant_place? (expr : Expr) (index : Nat) :
    (expr.place? index).map Place.occupant = expr.child? index := by
  rw [place?, child?, ← expr.occupants, List.getElem?_map]

/-! ### What filling a place changes -/

namespace Place

variable {node node' : Type}

/-- The node with a child in the place, if the place takes its family. -/
def fill? : Place node → Expr → Option node
  | bool _ filledWith, .bool child => some (filledWith child)
  | value _ filledWith, .value child => some (filledWith child)
  | _, _ => none

/-- To fill the place sets the child at an index and changes nothing else. -/
structure Sets (children : node → List Expr) (frame : node → node) (source : node) (index : Nat)
    (place : Place node) : Prop where
  children_eq {child changed} (fills : place.fill? child = some changed) :
    children changed = (children source).set index child
  frame_eq {child changed} (fills : place.fill? child = some changed) :
    frame changed = frame source

namespace Sets

variable {children : node → List Expr} {frame : node → node} {source : node} {index : Nat}

theorem ofBool {occupant : BoolExpr} {filledWith : BoolExpr → node}
    (children_eq : ∀ child,
      children (filledWith child) = (children source).set index (.bool child))
    (frame_eq : ∀ child, frame (filledWith child) = frame source) :
    Sets children frame source index (bool occupant filledWith) := by
  constructor <;> intro child changed fills <;> cases child <;> cases fills
  · exact children_eq _
  · exact frame_eq _

theorem ofValue {occupant : ValueExpr} {filledWith : ValueExpr → node}
    (children_eq : ∀ child,
      children (filledWith child) = (children source).set index (.value child))
    (frame_eq : ∀ child, frame (filledWith child) = frame source) :
    Sets children frame source index (value occupant filledWith) := by
  constructor <;> intro child changed fills <;> cases child <;> cases fills
  · exact children_eq _
  · exact frame_eq _

theorem wrapped {children' : node' → List Expr} {frame' : node' → node'} {wrap : node → node'}
    {place : Place node} (sets : Sets children frame source index place)
    (children_wrap : ∀ node, children' (wrap node) = children node)
    (frame_wrap : ∀ node, frame' (wrap node) = wrap (frame node)) :
    Sets children' frame' (wrap source) index (place.map wrap) := by
  cases place with
  | bool occupant filledWith =>
    have fills (child : BoolExpr) :
      (bool occupant filledWith).fill? (.bool child) = some (filledWith child) := rfl
    refine .ofBool (fun child => ?_) fun child => ?_
    · rw [children_wrap, children_wrap, sets.children_eq (fills child)]
    · rw [frame_wrap, frame_wrap, sets.frame_eq (fills child)]
  | value occupant filledWith =>
    have fills (child : ValueExpr) :
      (value occupant filledWith).fill? (.value child) = some (filledWith child) := rfl
    refine .ofValue (fun child => ?_) fun child => ?_
    · rw [children_wrap, children_wrap, sets.children_eq (fills child)]
    · rw [frame_wrap, frame_wrap, sets.frame_eq (fills child)]

end Sets

end Place

open Place (Sets)

private theorem map_const_set {nodes : List ValueExpr} {index : Nat} {child : ValueExpr} :
    (nodes.set index child).map (fun _ => (default : ValueExpr)) = nodes.map fun _ => default := by
  simp [List.map_const']

theorem BoolExpr.sets {node : BoolExpr} {index : Nat} {place : Place BoolExpr}
    (found : node.places[index]? = some place) : Sets children frame node index place := by
  cases node with
  | constant => cases found
  | binary =>
    rcases index with _ | _ | _ <;> cases found <;> exact .ofBool (fun _ => rfl) fun _ => rfl
  | not =>
    rcases index with _ | _ <;> cases found
    exact .ofBool (fun _ => rfl) fun _ => rfl
  | comparison =>
    rcases index with _ | _ | _ <;> cases found <;> exact .ofValue (fun _ => rfl) fun _ => rfl
  | bounds =>
    rcases index with _ | _ | _ | _ <;> cases found <;> exact .ofValue (fun _ => rfl) fun _ => rfl
  | nullTest =>
    rcases index with _ | _ <;> cases found
    exact .ofValue (fun _ => rfl) fun _ => rfl
  | inList span value candidates =>
    cases index with
    | zero =>
      cases found
      exact .ofValue (fun _ => rfl) fun _ => rfl
    | succ index =>
      simp only [places, List.getElem?_cons_succ, List.getElem?_mapIdx,
        Option.map_eq_some_iff] at found
      obtain ⟨candidate, listed, rfl⟩ := found
      refine .ofValue (fun child => ?_) fun child => ?_
      · simp [children, List.map_set]
      · simp only [frame, map_const_set]
  | inVector =>
    rcases index with _ | _ | _ <;> cases found <;> exact .ofValue (fun _ => rfl) fun _ => rfl
  | wrapper =>
    rcases index with _ | _ <;> cases found
    exact .ofValue (fun _ => rfl) fun _ => rfl
  | boundary => cases found
  | stepReference => cases found

theorem ValueExpr.sets {node : ValueExpr} {index : Nat} {place : Place ValueExpr}
    (found : node.places[index]? = some place) : Sets children frame node index place := by
  cases node with
  | constant => cases found
  | path => cases found
  | parameter => cases found
  | binary =>
    rcases index with _ | _ | _ <;> cases found <;> exact .ofValue (fun _ => rfl) fun _ => rfl
  | unary | cast | conversion | quantum =>
    rcases index with _ | _ <;> cases found
    exact .ofValue (fun _ => rfl) fun _ => rfl
  | call span name arguments binding =>
    simp only [places, List.getElem?_mapIdx, Option.map_eq_some_iff] at found
    obtain ⟨argument, listed, rfl⟩ := found
    refine .ofValue (fun child => ?_) fun child => ?_
    · simp [children, List.map_set]
    · simp only [frame, map_const_set]
  | aggregation span op count target condition scope quanta scopePath =>
    -- the numbers of the places depend on which optional parts are there
    cases count <;> cases condition <;> cases quanta <;>
      rcases index with _ | _ | _ | _ | index <;> cases found <;>
      first
      | exact .ofValue (fun _ => rfl) fun _ => rfl
      | exact .ofBool (fun _ => rfl) fun _ => rfl
  | now => cases found

theorem Expr.sets {expr : Expr} {index : Nat} {place : Place Expr}
    (found : expr.place? index = some place) : Sets children frame expr index place := by
  cases expr with
  | bool node =>
    simp only [place?, places, List.getElem?_map, Option.map_eq_some_iff] at found
    obtain ⟨inner, found, rfl⟩ := found
    exact (BoolExpr.sets found).wrapped (fun _ => rfl) fun _ => rfl
  | value node =>
    simp only [place?, places, List.getElem?_map, Option.map_eq_some_iff] at found
    obtain ⟨inner, found, rfl⟩ := found
    exact (ValueExpr.sets found).wrapped (fun _ => rfl) fun _ => rfl

/-! ### Replacing a child -/

namespace Expr

variable {expr changed old offered returned : Expr} {index : Nat}

/-- Predicates are one family, values the other. -/
def isPredicate : Expr → Bool
  | bool _ => true
  | value _ => false

/-- A place takes the family of the child that stands in it. -/
theorem fill?_eq_none {place : Place Expr} {child : Expr} :
    place.fill? child = none ↔ place.occupant.isPredicate ≠ child.isPredicate := by
  cases place <;> cases child <;> simp [Place.fill?, Place.occupant, isPredicate]

theorem setChild_eq_ok : expr.setChild index offered = .ok (changed, old) ↔
    ∃ place, expr.place? index = some place ∧ place.occupant = old ∧
      place.fill? offered = some changed := by
  cases found : expr.place? index with
  | none => simp [setChild, found]
  | some place => cases place <;> cases offered <;>
      simp [setChild, found, Place.fill?, Place.occupant, and_comm]

theorem setChild_eq_error : expr.setChild index offered = .error returned ↔
    returned = offered ∧ ∀ place, expr.place? index = some place → place.fill? offered = none := by
  cases found : expr.place? index with
  | none => simp [setChild, found, eq_comm]
  | some place => cases place <;> cases offered <;>
      simp [setChild, found, Place.fill?, eq_comm]

theorem child?_eq_some : expr.child? index = some old ↔
    ∃ place, expr.place? index = some place ∧ place.occupant = old := by
  rw [← occupant_place?, Option.map_eq_some_iff]

theorem exists_setChild (there : expr.child? index = some old)
    (fits : old.isPredicate = offered.isPredicate) :
    ∃ changed, expr.setChild index offered = .ok (changed, old) := by
  obtain ⟨place, found, rfl⟩ := child?_eq_some.1 there
  obtain ⟨changed, fills⟩ := Option.ne_none_iff_exists'.1 fun unfit => fill?_eq_none.1 unfit fits
  exact ⟨changed, setChild_eq_ok.2 ⟨place, found, rfl, fills⟩⟩

section Replaced

variable (replaced : expr.setChild index offered = .ok (changed, old))

include replaced

theorem child?_of_setChild : expr.child? index = some old := by
  obtain ⟨place, found, occupied, _⟩ := setChild_eq_ok.1 replaced
  exact child?_eq_some.2 ⟨place, found, occupied⟩

theorem isPredicate_of_setChild : old.isPredicate = offered.isPredicate := by
  obtain ⟨place, _, rfl, fills⟩ := setChild_eq_ok.1 replaced
  by_contra unfit
  cases fills.symm.trans (fill?_eq_none.2 unfit)

theorem children_of_setChild : changed.children = expr.children.set index offered := by
  obtain ⟨place, found, _, fills⟩ := setChild_eq_ok.1 replaced
  exact (sets found).children_eq fills

theorem frame_of_setChild : changed.frame = expr.frame := by
  obtain ⟨place, found, _, fills⟩ := setChild_eq_ok.1 replaced
  exact (sets found).frame_eq fills

theorem child?_setChild_self : changed.child? index = some offered := by
  have inside := (List.getElem?_eq_some_iff.1 (child?_of_setChild replaced)).1
  rw [child?, children_of_setChild replaced, List.getElem?_set_self inside]

theorem child?_setChild_other {other : Nat} (apart : other ≠ index) :
    changed.child? other = expr.child? other := by
  rw [child?, children_of_setChild replaced, List.getElem?_set_ne apart.symm, child?]

/-- To replace a child and to put it back is to do nothing, for the node has the frame and the
children that it had. -/
theorem setChild_back : changed.setChild index old = .ok (expr, offered) := by
  obtain ⟨restored, back⟩ := exists_setChild (child?_setChild_self replaced)
    (isPredicate_of_setChild replaced).symm
  have children : restored.children = expr.children := by
    obtain ⟨inside, there⟩ := List.getElem?_eq_some_iff.1 (child?_of_setChild replaced)
    rw [children_of_setChild back, children_of_setChild replaced, List.set_set, ← there,
      List.set_getElem_self]
  have frame : restored.frame = expr.frame :=
    (frame_of_setChild back).trans (frame_of_setChild replaced)
  rw [back, eq_of_frame frame children]

end Replaced

theorem setChild_eq_error_iff : expr.setChild index offered = .error returned ↔
    returned = offered ∧ (expr.child? index = none ∨
      ∃ old, expr.child? index = some old ∧ old.isPredicate ≠ offered.isPredicate) := by
  rw [setChild_eq_error, ← occupant_place?]
  cases found : expr.place? index with
  | none => simp
  | some place => simp [fill?_eq_none]

/-- Reading and replacing children obeys the laws of a lens. A replacement gives back the child
that was there, sets this one and leaves the rest of the node alone, and the one back undoes it;
it fails exactly if there is no such child or one of the other family. Every child stands in a
place with its number, through which it is read and replaced. -/
theorem setChild_lens (expr : Expr) (index : Nat) (offered : Expr) :
    (∀ changed old, expr.setChild index offered = .ok (changed, old) →
      expr.child? index = some old ∧ changed.child? index = some offered ∧
      changed.children.length = expr.children.length ∧
      (∀ other, other ≠ index → changed.child? other = expr.child? other) ∧
      changed.kind = expr.kind ∧ changed.span = expr.span ∧ changed.frame = expr.frame ∧
      changed.setChild index old = .ok (expr, offered)) ∧
    (∀ returned, expr.setChild index offered = .error returned ↔ returned = offered ∧
      (expr.child? index = none ∨
        ∃ old, expr.child? index = some old ∧ old.isPredicate ≠ offered.isPredicate)) ∧
    (index < expr.children.length → ∃ place, expr.place? index = some place ∧
      expr.child? index = some place.occupant ∧
      ∀ child, (place.fill? child = none ↔ place.occupant.isPredicate ≠ child.isPredicate) ∧
        ∀ changed, place.fill? child = some changed →
          changed.children = expr.children.set index child ∧ changed.frame = expr.frame) := by
  refine ⟨fun changed old replaced => ?_, fun returned => setChild_eq_error_iff, fun inside => ?_⟩
  · have frames := frame_of_setChild replaced
    refine ⟨child?_of_setChild replaced, child?_setChild_self replaced, ?_,
      fun other apart => child?_setChild_other replaced apart, ?_, ?_, frames,
      setChild_back replaced⟩
    · rw [children_of_setChild replaced, List.length_set]
    · rw [← kind_frame, frames, kind_frame]
    · rw [← span_frame, frames, span_frame]
  · obtain ⟨place, found, occupied⟩ := child?_eq_some.1 (List.getElem?_eq_getElem inside)
    refine ⟨place, found, child?_eq_some.2 ⟨place, found, rfl⟩, fun child => ⟨fill?_eq_none, ?_⟩⟩
    exact fun changed fills => ⟨(sets found).children_eq fills, (sets found).frame_eq fills⟩

end Expr

end EventQuery
