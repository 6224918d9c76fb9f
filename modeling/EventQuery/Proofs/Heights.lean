import EventQuery.Proofs.BoundTrees
import EventQuery.Proofs.CaptureFlags
import EventQuery.Proofs.Slots

/-!
The height of expressions and patterns. The levels of the nodes of a tree that lies at level 1
go up to its height. Every pass puts trees that are no higher in the place of the children of a
node, or constants where there were children before, so no pass makes a tree higher.
-/
namespace EventQuery

open Outcome

/-! ### Trees and their levels -/

private theorem foldr_max_le {heights : List Nat} {limit : Nat} :
    heights.foldr max 0 ≤ limit ↔ ∀ height ∈ heights, height ≤ limit := by
  induction heights with
  | nil => simp
  | cons height rest ih => rw [List.foldr_cons, Nat.max_le, ih, List.forall_mem_cons]

section

variable {α : Type}

/-- The nodes of a tree are the tree itself and those of its children one level below, and it is
as high as that takes. -/
structure Layered (children : α → List α) (height : α → Nat)
    (nodesFrom : Nat → α → List (Nat × α)) : Prop where
  nodesFrom_eq : ∀ level tree, nodesFrom level tree =
    (level, tree) :: (children tree).flatMap (nodesFrom (level + 1))
  height_pos : ∀ tree, 0 < height tree
  height_le_succ : ∀ tree limit,
    height tree ≤ limit + 1 ↔ ∀ child ∈ children tree, height child ≤ limit

namespace Layered

variable {children : α → List α} {height : α → Nat} {nodesFrom : Nat → α → List (Nat × α)}
  {tree : α} {level limit : Nat}

/-- The levels of the nodes go up to the height. -/
theorem levels_le_iff (layered : Layered children height nodesFrom) :
    (∀ place ∈ nodesFrom (level + 1) tree, place.1 ≤ level + limit) ↔ height tree ≤ limit := by
  induction limit generalizing level tree with
  | zero =>
    have high := layered.height_pos tree
    rw [layered.nodesFrom_eq, List.forall_mem_cons]
    omega
  | succ limit ih =>
    rw [layered.nodesFrom_eq, List.forall_mem_cons, List.forall_mem_flatMap,
      layered.height_le_succ, and_iff_right (by omega), Nat.add_comm limit, ← Nat.add_assoc]
    exact forall₂_congr fun child _ => ih

theorem height_lt (layered : Layered children height nodesFrom) {child : α}
    (member : child ∈ children tree) : height child < height tree := by
  have positive := layered.height_pos tree
  have low := (layered.height_le_succ tree (height tree - 1)).1 (by omega) child member
  omega

end Layered

/-! ### Levels that rise one by one -/

/-- No level is higher than the top, unless it is one more than a level before it at most. -/
def Climbs (top : Nat) : List Nat → Prop
  | [] => True
  | level :: rest => level ≤ top ∧ Climbs (max top (level + 1)) rest

namespace Climbs

variable {top level limit : Nat} {levels levels' : List Nat}

theorem mono (climbs : Climbs top levels) {higher : Nat} (above : top ≤ higher) :
    Climbs higher levels := by
  induction levels generalizing top higher with
  | nil => trivial
  | cons level rest ih =>
    obtain ⟨first, others⟩ := climbs
    exact ⟨Nat.le_trans first above, ih others (by omega)⟩

theorem append (climbs : Climbs top levels) (climbs' : Climbs top levels') :
    Climbs top (levels ++ levels') := by
  induction levels generalizing top with
  | nil => exact climbs'
  | cons level rest ih =>
    obtain ⟨first, others⟩ := climbs
    exact ⟨first, ih others (climbs'.mono (Nat.le_max_left ..))⟩

theorem flatMap {parts : List α} {levels : α → List Nat}
    (each : ∀ part ∈ parts, Climbs top (levels part)) : Climbs top (parts.flatMap levels) := by
  induction parts with
  | nil => trivial
  | cons part rest ih =>
    obtain ⟨first, others⟩ := List.forall_mem_cons.1 each
    rw [List.flatMap_cons]
    exact first.append (ih others)

/-- The first level above a limit is the one right above it. -/
theorem eq_of_find? {places : List (Nat × α)} (climbs : Climbs top (places.map Prod.fst))
    (below : top ≤ limit + 1) {place : Nat × α}
    (found : places.find? (fun place => limit < place.1) = some place) : place.1 = limit + 1 := by
  induction places generalizing top with
  | nil => cases found
  | cons first rest ih =>
    obtain ⟨low, others⟩ := climbs
    rw [List.find?_cons] at found
    split at found
    case h_1 above =>
      obtain rfl := Option.some.inj found
      have above : limit < first.1 := by simpa using above
      omega
    case h_2 within =>
      have within : first.1 ≤ limit := by simpa using within
      exact ih others (by omega) found

end Climbs

/-- The levels of the nodes rise one by one, since each node comes after the one above it. -/
theorem Layered.climbs {children : α → List α} {height : α → Nat}
    {nodesFrom : Nat → α → List (Nat × α)} (layered : Layered children height nodesFrom)
    (level : Nat) (tree : α) : Climbs level ((nodesFrom level tree).map Prod.fst) := by
  have bounded (limit : Nat) : ∀ tree level, height tree ≤ limit →
      Climbs level ((nodesFrom level tree).map Prod.fst) := by
    induction limit with
    | zero =>
      intro tree level low
      have high := layered.height_pos tree
      omega
    | succ limit ih =>
      intro tree level low
      rw [layered.nodesFrom_eq, List.map_cons, List.map_flatMap]
      refine ⟨Nat.le_refl _, (Climbs.flatMap fun child member => ?_).mono (Nat.le_max_right ..)⟩
      exact ih child _ ((layered.height_le_succ tree limit).1 low child member)
  exact bounded _ tree level (Nat.le_refl _)

/-! ### Descents -/

/-- A way through a tree: the level that it is on, and where it first was on too deep a level. -/
structure Descent where
  level : Nat
  exceeded : Option Span

namespace Descent

/-- Enters a node and looks at what is below, unless that is too deep or something was before. -/
def enter (limit : Nat) (span : Span) (below : Descent → Descent) (descent : Descent) : Descent :=
  if descent.exceeded.isSome then descent
  else if limit < descent.level + 1 then { descent with exceeded := some span }
  else
    let left := below { descent with level := descent.level + 1 }
    { left with level := left.level - 1 }

/-- Passes nodes on their levels and comes back to its own. -/
def past (limit : Nat) (descent : Descent) (places : List (Nat × Span)) : Descent :=
  { descent with
    exceeded := descent.exceeded.or
      ((places.find? fun place => limit < place.1).map Prod.snd) }

variable {limit : Nat} {descent : Descent}

theorem past_nil : descent.past limit [] = descent := by simp [past]

theorem past_append {places places' : List (Nat × Span)} :
    descent.past limit (places ++ places') = (descent.past limit places).past limit places' := by
  simp only [past, List.find?_append, Option.map_or, Option.or_assoc]

theorem past_flatMap {parts : List α} {visit : Descent → α → Descent}
    {places : α → List (Nat × Span)}
    (each : ∀ part ∈ parts, ∀ along, along.level = descent.level →
      visit along part = along.past limit (places part)) :
    parts.foldl visit descent = descent.past limit (parts.flatMap places) := by
  induction parts generalizing descent with
  | nil => exact past_nil.symm
  | cons part rest ih =>
    obtain ⟨first, others⟩ := List.forall_mem_cons.1 each
    rw [List.foldl_cons, List.flatMap_cons, past_append, first _ rfl]
    exact ih fun part member along same => others part member along same

end Descent

/-- Descending into a tree and coming back, one is where one was, and has seen its nodes. -/
theorem Layered.descend_eq {children : α → List α} {height : α → Nat}
    {nodesFrom : Nat → α → List (Nat × α)} (layered : Layered children height nodesFrom)
    {span : α → Span} {limit : Nat} {descend : Descent → α → Descent}
    (eq : ∀ descent tree, descend descent tree = descent.enter limit (span tree)
      fun below => (children tree).foldl descend below) (descent : Descent) (tree : α) :
    descend descent tree = descent.past limit
      ((nodesFrom (descent.level + 1) tree).map fun (level, node) => (level, span node)) := by
  -- Of `descend` there is only its equation, of the trees only that heights fall on the way down.
  induction bounded : height tree using Nat.strong_induction_on generalizing descent tree with
  | h _ ih =>
    subst bounded
    rw [eq, layered.nodesFrom_eq, List.map_cons, List.map_flatMap]
    obtain ⟨level, exceeded⟩ := descent
    cases exceeded with
    | some span => simp [Descent.enter, Descent.past]
    | none =>
      by_cases deep : limit < level + 1
      · simp [Descent.enter, Descent.past, deep]
      · have below : (children tree).foldl descend ⟨level + 1, none⟩ =
            Descent.past limit ⟨level + 1, none⟩ ((children tree).flatMap fun child =>
              (nodesFrom (level + 1 + 1) child).map fun (level, node) => (level, span node)) :=
          Descent.past_flatMap fun child member along same => by
            rw [ih _ (layered.height_lt member) along child rfl, same]
        simp [Descent.enter, Descent.past, deep, below]

end

/-! ### Expressions -/

namespace Expr

/-- The number of nodes on the longest way down; a leaf has height 1. -/
def height (expr : Expr) : Nat :=
  (expr.children.attach.map fun ⟨child, _⟩ => child.height).foldr max 0 + 1
termination_by sizeOf expr
decreasing_by exact sizeOf_child ‹_›

theorem height_pos (expr : Expr) : 0 < expr.height := by
  rw [height]
  exact Nat.succ_pos _

theorem height_le_succ {expr : Expr} {limit : Nat} :
    expr.height ≤ limit + 1 ↔ ∀ child ∈ expr.children, child.height ≤ limit := by
  rw [height, Nat.add_le_add_iff_right, foldr_max_le, List.forall_mem_map]
  constructor
  · intro low child member
    exact low ⟨child, member⟩ (List.mem_attach ..)
  · rintro low ⟨child, member⟩ -
    exact low child member

theorem layered : Layered children height nodesFrom :=
  ⟨nodesFrom_eq, height_pos, fun _ _ => height_le_succ⟩

theorem height_of_childless {expr : Expr} (leaf : expr.children = []) : expr.height = 1 := by
  refine Nat.le_antisymm (height_le_succ.2 ?_) expr.height_pos
  rw [leaf]
  exact List.forall_mem_nil _

theorem height_of_isLiteral {expr : Expr} (literal : expr.isLiteral = true) : expr.height = 1 := by
  obtain ⟨span, value, rfl | rfl⟩ := exists_of_isLiteral literal <;> exact height_of_childless rfl

theorem height_of_isFilling {expr : Expr} (filling : Slot.isFilling expr = true) :
    expr.height = 1 := by
  rcases Slot.isFilling_iff.1 filling with ⟨span, value, rfl⟩ | ⟨span, name, path, rfl⟩ <;>
    exact height_of_childless rfl

/-- Descends into an expression and looks at all its nodes. -/
def descend (limit : Nat) (descent : Descent) (expr : Expr) : Descent :=
  descent.enter limit expr.span fun below =>
    expr.children.attach.foldl (fun below child => child.1.descend limit below) below
termination_by sizeOf expr
decreasing_by exact sizeOf_child child.2

theorem descend_eq (limit : Nat) (descent : Descent) (expr : Expr) :
    expr.descend limit descent = descent.past limit
      ((expr.nodesFrom (descent.level + 1)).map fun (level, node) => (level, node.span)) := by
  refine layered.descend_eq (fun descent expr => ?_) descent expr
  rw [descend]
  congr 1
  funext below
  exact List.foldl_attach

/-- A node is no higher than another one if each of its children is no higher than some child of
that one, or is a constant while that one is no leaf. -/
theorem height_le_of_children {source expr : Expr}
    (leaf : source.children = [] → expr.children = [])
    (children : ∀ child' ∈ expr.children,
      child'.isLiteral = true ∨ ∃ child ∈ source.children, child'.height ≤ child.height) :
    expr.height ≤ source.height := by
  by_cases childless : source.children = []
  · rw [height_of_childless (leaf childless)]
    exact source.height_pos
  have positive := source.height_pos
  obtain ⟨limit, high⟩ : ∃ limit, source.height = limit + 1 := Nat.exists_eq_add_one.2 positive
  rw [high, height_le_succ]
  intro child' member
  rcases children child' member with literal | ⟨child, listed, lower⟩
  · obtain ⟨child, listed⟩ := List.exists_mem_of_ne_nil _ childless
    have shorter := layered.height_lt listed
    have positive := child.height_pos
    rw [height_of_isLiteral literal]
    omega
  · have shorter := layered.height_lt listed
    omega

end Expr

/-! ### Binding -/

theorem SameNode.childless {R : Expr → Expr → Prop} {source expr : Expr}
    (same : SameNode R source expr) (leaf : source.children = []) : expr.children = [] := by
  refine List.eq_nil_iff_forall_not_mem.2 fun child' member => ?_
  rcases same.exists_child_or_mem member with listed | ⟨child, listed, -⟩ <;>
  · rw [leaf] at listed
    cases listed

/-- An aggregation has a target at least. -/
private theorem Expr.aggregation_not_childless {span : Span} {op : AggregationOp}
    {count quanta : Option ValueExpr} {target : ValueExpr} {condition : Option BoolExpr}
    {scope : Option String} {scopePath : Option Path} :
    (Expr.value (.aggregation span op count target condition scope quanta scopePath)).children ≠
      [] := by
  simp [children, ValueExpr.children]

namespace Expr.BindsIn

variable {context : Context} {source expr : Expr}

private theorem childless (binds : BindsIn context source expr) (leaf : source.children = []) :
    expr.children = [] := by
  by_cases plain : source.isPlain = true
  · exact ((sameNode_iff plain).1 binds).childless leaf
  cases binds with
  | @bool node node' bound =>
    cases node <;> first | exact absurd rfl plain | skip
    all_goals
      simp only [BoolExpr.bind, bind_eq_ok, Stopped.check_eq_ok, pure_eq_ok] at bound
      obtain ⟨_, _, rfl⟩ := bound
      rfl
  | @value node node' bound =>
    cases node <;> first | exact absurd rfl plain | exact absurd leaf aggregation_not_childless | skip
    case call =>
      have none := List.map_eq_nil_iff.1 leaf
      obtain ⟨known, -, ⟨_, -, rfl⟩ | ⟨-, arguments', _, all, -, rfl⟩⟩ := Bind.call_iff.1 bound
      · exact leaf
      · rw [none] at all
        cases all
        rfl
    case quantum => cases leaf
    all_goals
      simp only [ValueExpr.bind, bind_eq_ok, pure_eq_ok] at bound
      obtain ⟨_, _, rfl⟩ := bound
      rfl

/-- Binding makes no tree higher. -/
theorem height_le (binds : BindsIn context source expr) : expr.height ≤ source.height := by
  induction source using byChildren generalizing context expr with
  | node source ih =>
    refine height_le_of_children binds.childless fun child' member => ?_
    refine (binds.inversion.2 child' member).imp_right ?_
    rintro ⟨child, listed, inner, -, binds⟩
    exact ⟨child, listed, ih child listed binds⟩

end Expr.BindsIn

/-! ### Validation -/

namespace Expr.ValidatesTo

variable {root : Path} {source expr : Expr}

private theorem childless [ZoneTable] (validates : ValidatesTo source expr)
    (resolved : source.Resolved root) (leaf : source.children = []) : expr.children = [] := by
  by_cases plain : source.isPlain = true
  · exact ((sameNode_iff plain).1 validates).childless leaf
  cases validates with
  | @bool node node' valid =>
    cases node <;> first | exact absurd rfl plain | skip
    all_goals
      cases valid
      rfl
  | @value node node' valid =>
    cases node <;> first | exact absurd rfl plain | exact absurd leaf aggregation_not_childless | skip
    case call =>
      obtain ⟨known, rfl, -⟩ := resolved
      by_cases validated : Validate.validatesArguments known.function = true
      · obtain ⟨arguments', binding', all, -, rfl⟩ := (Validate.call_eq_ok validated).1 valid
        rw [List.map_eq_nil_iff.1 leaf] at all
        cases all
        rfl
      · simp only [ValueExpr.validate, validated] at valid
        cases valid
        exact leaf
    case quantum => cases leaf
    all_goals
      cases valid
      rfl

/-- Validation makes no tree higher. -/
theorem height_le [ZoneTable] (validates : ValidatesTo source expr)
    (resolved : source.Everywhere (Resolved root)) : expr.height ≤ source.height := by
  induction source using byChildren generalizing expr with
  | node source ih =>
    refine height_le_of_children (validates.childless resolved.here) fun child' member => ?_
    refine ((validates.inversion resolved.here).2.2 child' member).imp_right ?_
    rintro ⟨child, listed, validates⟩
    exact ⟨child, listed, ih child listed validates (resolved.child listed)⟩

end Expr.ValidatesTo

/-! ### Optimization -/

theorem Folded.height_le {fold : Bool} {expr expr' : Expr} (folded : Folded fold expr expr') :
    expr'.height ≤ expr.height := by
  have positive := expr.height_pos
  have lower {operand child : Expr} (member : child ∈ operand.children) :=
    Nat.le_of_lt (Expr.layered.height_lt member)
  cases folded with
  | kept => exact Nat.le_refl _
  | predicate => rwa [Expr.height_of_isLiteral rfl]
  | value => rwa [Expr.height_of_isLiteral rfl]
  | absorbed => rwa [Expr.height_of_isLiteral rfl]
  | second => exact lower (List.mem_cons_of_mem _ (List.mem_cons_self ..))
  | first => exact lower (List.mem_cons_self ..)
  | doubleNegation =>
    exact Nat.le_trans (lower (List.mem_singleton_self _)) (lower (List.mem_singleton_self _))

/-- Optimization makes no tree higher. -/
theorem Optimized.height_le {fold : Bool} {expr expr' : Expr}
    (optimized : Optimized fold expr expr') : expr'.height ≤ expr.height := by
  induction expr using Expr.byChildren generalizing expr' with
  | node expr ih =>
    obtain ⟨mid, same, folded⟩ := optimized.inversion
    refine Nat.le_trans folded.height_le (Expr.height_le_of_children same.childless ?_)
    intro child' member
    rcases same.exists_child_or_mem member with listed | ⟨child, listed, optimized⟩
    · exact .inr ⟨child', listed, Nat.le_refl _⟩
    · exact .inr ⟨child, listed, ih child listed optimized⟩

/-! ### Patterns -/

namespace Pattern

/-- The patterns right below a node. -/
def parts : Pattern → List Pattern
  | step .. => []
  | list _ _ items _ => items
  | repetition _ _ _ child _ => [child]
  | bracket .. => []

mutual

/-- The number of nodes on the longest way down; a leaf has height 1. -/
def height : Pattern → Nat
  | step .. => 1
  | list _ _ items _ => heightOfAll items + 1
  | repetition _ _ _ child _ => child.height + 1
  | bracket .. => 1

/-- The height of the highest of some patterns. -/
def heightOfAll : List Pattern → Nat
  | [] => 0
  | item :: rest => max item.height (heightOfAll rest)

end

theorem height_pos (pattern : Pattern) : 0 < pattern.height := by
  cases pattern <;> exact Nat.succ_pos _

theorem heightOfAll_eq (items : List Pattern) :
    heightOfAll items = (items.map height).foldr max 0 := by
  induction items with
  | nil => rfl
  | cons item rest ih => rw [heightOfAll, ih, List.map_cons, List.foldr_cons]

theorem height_eq (pattern : Pattern) :
    pattern.height = (pattern.parts.map height).foldr max 0 + 1 := by
  cases pattern with
  | step => rfl
  | list span op items capturing => rw [height, heightOfAll_eq, parts]
  | repetition span least most child capturing => simp [height, parts]
  | bracket => rfl

theorem height_le_succ {pattern : Pattern} {limit : Nat} :
    pattern.height ≤ limit + 1 ↔ ∀ part ∈ pattern.parts, part.height ≤ limit := by
  rw [height_eq, Nat.add_le_add_iff_right, foldr_max_le, List.forall_mem_map]

private theorem nodesOfAllFrom_eq (level : Nat) (items : List Pattern) :
    nodesOfAllFrom level items = items.flatMap (nodesFrom level) := by
  induction items with
  | nil => rfl
  | cons item rest ih => simp only [nodesOfAllFrom, ih, List.flatMap_cons, nodesFrom]

theorem nodesFrom_eq (level : Nat) (pattern : Pattern) :
    pattern.nodesFrom level = (level, pattern) :: pattern.parts.flatMap (nodesFrom (level + 1)) := by
  cases pattern with
  | step => rfl
  | list span op items capturing => rw [nodesFrom, belowFrom, nodesOfAllFrom_eq, parts]
  | repetition span least most child capturing => simp [nodesFrom, belowFrom, parts]
  | bracket => rfl

theorem layered : Layered parts height nodesFrom :=
  ⟨nodesFrom_eq, height_pos, fun _ _ => height_le_succ⟩

mutual

/-- Descends into a pattern and looks at all its nodes. -/
def descend (limit : Nat) (descent : Descent) (pattern : Pattern) : Descent :=
  descent.enter limit pattern.span fun below =>
    match pattern with
    | step .. => below
    | list _ _ items _ => descendAll limit below items
    | repetition _ _ _ child _ => child.descend limit below
    | bracket .. => below

def descendAll (limit : Nat) (descent : Descent) : List Pattern → Descent
  | [] => descent
  | item :: rest => descendAll limit (item.descend limit descent) rest

end

private theorem descendAll_eq (limit : Nat) (descent : Descent) (items : List Pattern) :
    descendAll limit descent items = items.foldl (descend limit) descent := by
  induction items generalizing descent with
  | nil => rfl
  | cons item rest ih => rw [descendAll, ih, List.foldl_cons]

theorem descend_eq (limit : Nat) (descent : Descent) (pattern : Pattern) :
    pattern.descend limit descent = descent.past limit
      ((pattern.nodesFrom (descent.level + 1)).map fun (level, node) => (level, node.span)) := by
  refine layered.descend_eq (fun descent pattern => ?_) descent pattern
  rw [descend]
  congr 1
  funext below
  cases pattern with
  | step => rfl
  | list => exact descendAll_eq ..
  | repetition => rfl
  | bracket => rfl

/-- Settling changes flags only. -/
theorem height_settled (pattern : Pattern) : pattern.settled.height = pattern.height := by
  induction pattern using byParts with
  | step => rfl
  | list span op items capturing ih =>
    have same : (items.map settled).map height = items.map height := by
      rw [List.map_map]
      exact List.map_congr_left ih
    rw [settled_list, height, height, heightOfAll_eq, heightOfAll_eq, same]
  | repetition span least most child capturing ih => rw [settled, height, ih, height]
  | bracket => rfl

end Pattern

end EventQuery
