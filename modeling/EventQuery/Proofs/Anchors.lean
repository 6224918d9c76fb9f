import EventQuery.Proofs.Levels
import EventQuery.Proofs.PointPreservation

/-!
Anchors: the relations that parts of an expression are tied to. The point of an expression is
the deepest of its anchors, and it has none if two of them lie on different branches. So the
order and the nesting of the operands decide nothing.
-/
namespace EventQuery

open Outcome Axis

variable {root : Path} {expr : Expr}

/-! ### Deepest relations -/

namespace Path

theorem home_of_isRelation {path : Path} (isRelation : path.isRelation = true) :
    path.home = path := by
  cases path with
  | relation segments => rfl
  | field owner name info => cases isRelation

/-- Relations that contain each other are the same. -/
theorem eq_of_isAncestorOf {a b : Path} (first : a.isRelation = true) (second : b.isRelation = true)
    (above : a.isAncestorOf b = true) (below : b.isAncestorOf a = true) : a = b := by
  have same : a.owner = b.owner :=
    (isAncestorOf_iff.1 above).eq_of_length_le (isAncestorOf_iff.1 below).length_le
  rw [← home_of_isRelation first, ← home_of_isRelation second, home, home, same]

theorem areOffPath_of_lowest? {a b : Path} (apart : a.lowest? b = none) :
    a.areOffPath b = true := by
  unfold lowest? at apart
  split at apart
  case isTrue => cases apart
  case isFalse off =>
    split at apart
    case isTrue => cases apart
    case isFalse off' => simp [areOffPath, off, off']

end Path

namespace Axis

/-- The point is the deepest of the anchors, and `none` without an anchor. It fails on two anchors
that are not on one path. -/
def PlacedBy (anchor : Path → Prop) : Point → Prop
  | .ok none => ∀ path, ¬anchor path
  | .ok (some deepest) =>
    anchor deepest ∧ ∀ path, anchor path → path.isAncestorOf deepest = true
  | .error cause =>
    cause.kind = .scopeAxisError ∧ ∃ a b, anchor a ∧ anchor b ∧ a.areOffPath b = true

namespace PlacedBy

variable {anchor anchor' : Path → Prop} {a b : Path}

theorem congr {point : Point} (placed : PlacedBy anchor point)
    (same : ∀ path, anchor path ↔ anchor' path) : PlacedBy anchor' point := by
  obtain rfl : anchor = anchor' := funext fun path => propext (same path)
  exact placed

/-- More anchors do not bring off-path anchors together. -/
theorem error_mono {cause : Diagnostic} (placed : PlacedBy anchor (.error cause))
    (more : ∀ path, anchor path → anchor' path) : PlacedBy anchor' (.error cause) := by
  obtain ⟨isScope, a, b, first, second, off⟩ := placed
  exact ⟨isScope, a, b, more a first, more b second, off⟩

theorem single (path : Path) : PlacedBy (fun other => other = path) (.ok (some path)) :=
  ⟨rfl, fun _ same => same ▸ path.isAncestorOf_refl⟩

/-- The deeper of the deepest anchors of two parts is the deepest anchor of both. -/
theorem lowest? {deeper : Path} (first : PlacedBy anchor (.ok (some a)))
    (second : PlacedBy anchor' (.ok (some b))) (isRelation : a.isRelation = true)
    (isRelation' : b.isRelation = true) (found : a.lowest? b = some deeper) :
    PlacedBy (fun path => anchor path ∨ anchor' path) (.ok (some deeper)) := by
  obtain ⟨isAnchor, above⟩ := first
  obtain ⟨isAnchor', above'⟩ := second
  unfold Path.lowest? at found
  split at found
  case isTrue contains =>
    cases found
    rw [Path.home_of_isRelation isRelation']
    refine ⟨.inr isAnchor', fun path listed => listed.elim (fun listed => ?_) (above' path)⟩
    exact Path.isAncestorOf_trans (above path listed) contains
  case isFalse =>
    split at found
    case isTrue contains =>
      cases found
      rw [Path.home_of_isRelation isRelation]
      refine ⟨.inl isAnchor, fun path listed => listed.elim (above path) fun listed => ?_⟩
      exact Path.isAncestorOf_trans (above' path listed) contains
    case isFalse => cases found

/-- Anchors that lie above one relation are on one path. -/
theorem onPath {point : Option Path} (placed : PlacedBy anchor (.ok point)) (first : anchor a)
    (second : anchor b) : a.areOffPath b = false := by
  cases point with
  | none => exact absurd first (placed a)
  | some deepest =>
    exact Path.areOffPath_eq_false.2
      (Path.isAncestorOf_or (placed.2 a first) (placed.2 b second))

/-! The anchors say everything about the point. -/

variable {point : Point}

theorem eq_none_iff (placed : PlacedBy anchor point) :
    point = .ok none ↔ ∀ path, ¬anchor path := by
  constructor
  · rintro rfl
    exact placed
  · intro absent
    rcases point with _ | _ | deepest
    · obtain ⟨_, a, _, isAnchor, _⟩ := placed
      exact absurd isAnchor (absent a)
    · rfl
    · exact absurd placed.1 (absent deepest)

theorem exists_ok_iff (placed : PlacedBy anchor point) :
    (∃ place, point = .ok place) ↔ ∀ a b, anchor a → anchor b → a.areOffPath b = false := by
  constructor
  · rintro ⟨place, rfl⟩ a b
    exact placed.onPath
  · intro onPath
    cases point with
    | ok place => exact ⟨place, rfl⟩
    | error cause =>
      obtain ⟨_, a, b, first, second, off⟩ := placed
      cases off.symm.trans (onPath a b first second)

theorem eq_some_iff (placed : PlacedBy anchor point)
    (relations : ∀ path, anchor path → path.isRelation = true) {deepest : Path} :
    point = .ok (some deepest) ↔ (∀ a b, anchor a → anchor b → a.areOffPath b = false) ∧
      anchor deepest ∧ ∀ path, anchor path → path.isAncestorOf deepest = true := by
  constructor
  · rintro rfl
    exact ⟨fun _ _ => placed.onPath, placed⟩
  · rintro ⟨onPath, isAnchor, above⟩
    obtain ⟨place, rfl⟩ := placed.exists_ok_iff.2 onPath
    cases place with
    | none => exact absurd isAnchor (placed deepest)
    | some other =>
      obtain ⟨isAnchor', above'⟩ := placed
      rw [Path.eq_of_isAncestorOf (relations _ isAnchor') (relations _ isAnchor)
        (above other isAnchor') (above' deepest isAnchor)]

theorem error_iff (placed : PlacedBy anchor point) :
    (∃ cause, point = .error cause ∧ cause.kind = .scopeAxisError) ↔
      ∃ a b, anchor a ∧ anchor b ∧ a.areOffPath b = true := by
  constructor
  · rintro ⟨cause, rfl, _⟩
    exact placed.2
  · rintro ⟨a, b, first, second, off⟩
    cases point with
    | ok place => cases off.symm.trans (placed.onPath first second)
    | error cause => exact ⟨cause, rfl, placed.1⟩

end PlacedBy

/-- The point of several parts, after others whose deepest anchor is known, is the deepest anchor
of all. -/
theorem placedBy_combineFrom {span : Span} {ι : Type} {part : ι → Point} {anchor : ι → Path → Prop}
    {nodes : List ι} {known : Path → Prop} {lowest : Option Path}
    (start : PlacedBy known (.ok lowest)) (relations : ∀ path, known path → path.isRelation = true)
    (each : ∀ node ∈ nodes, PlacedBy (anchor node) (part node) ∧
      ∀ path, anchor node path → path.isRelation = true) :
    PlacedBy (fun path => known path ∨ ∃ node ∈ nodes, anchor node path)
      (combineFrom span lowest (nodes.map part)) := by
  -- The anchors of the parts done so far are `known`, and `lowest` is where they meet.
  induction nodes generalizing known lowest with
  | nil => exact start.congr fun path => by simp
  | cons node rest ih =>
    obtain ⟨⟨placed, relations'⟩, each⟩ := List.forall_mem_cons.1 each
    rw [List.map_cons]
    cases found : part node with
    | error cause =>
      rw [found] at placed
      exact placed.error_mono fun path listed => .inr ⟨node, List.mem_cons_self, listed⟩
    | ok point =>
      rw [found] at placed
      cases point with
      | none =>
        have joined : combineFrom span lowest (.ok none :: rest.map part) =
            combineFrom span lowest (rest.map part) := by cases lowest <;> rfl
        rw [joined]
        refine (ih start relations each).congr fun path => or_congr_right ?_
        rw [List.exists_mem_cons_iff]
        exact (or_iff_right (placed path)).symm
      | some other =>
        cases lowest with
        | none =>
          refine (ih placed relations' each).congr fun path => ?_
          rw [List.exists_mem_cons_iff]
          exact (or_iff_right (start path)).symm
        | some current =>
          simp only [combineFrom, bind, Except.bind]
          cases met : current.lowest? other with
          | none =>
            exact ⟨rfl, current, other, .inl start.1,
              .inr ⟨node, List.mem_cons_self, placed.1⟩, Path.areOffPath_of_lowest? met⟩
          | some deeper =>
            have both := start.lowest? placed (relations _ start.1) (relations' _ placed.1) met
            refine (ih both (fun path listed => listed.elim (relations path) (relations' path))
              each).congr fun path => ?_
            rw [List.exists_mem_cons_iff, or_assoc]

/-- The point of several parts is the deepest anchor of all. -/
theorem placedBy_combine {span : Span} {ι : Type} {part : ι → Point} {anchor : ι → Path → Prop}
    {nodes : List ι} (each : ∀ node ∈ nodes, PlacedBy (anchor node) (part node) ∧
      ∀ path, anchor node path → path.isRelation = true) :
    PlacedBy (fun path => ∃ node ∈ nodes, anchor node path) (combine span (nodes.map part)) := by
  have nothing : PlacedBy (fun _ => False) (.ok none) := fun _ => id
  exact (placedBy_combineFrom nothing (fun _ => False.elim) each).congr fun path => by simp

end Axis

/-! ### Anchors of an expression -/

namespace Expr

/-- The relation that a node is tied to by itself: that of a name or a boundary, the scope of an
aggregation, or the relation that a call is about. -/
def anchor? : Expr → Option Path
  | .bool (.boundary _ _ _ resolved) => resolved
  | .value (.path _ _ resolved) => resolved.map Path.home
  | .value (.aggregation _ _ _ _ _ _ _ scopePath) => scopePath
  | .value (.call _ _ _ (some ⟨.frequency, .target path⟩)) => some path.home
  | .value (.call _ _ _ (some ⟨.size, .target path⟩)) => path.parent?
  | .value (.call _ _ _ (some ⟨.about _, .referent _ relation⟩)) => some relation
  | _ => none

/-- The anchors of an expression are those of its nodes. Nothing inside an aggregation or a call
that has a relation of its own counts. -/
inductive HasAnchor : Expr → Path → Prop where
  | own {expr : Expr} {path : Path} (tied : expr.anchor? = some path) : HasAnchor expr path
  | within {expr child : Expr} {path : Path} (combined : expr.combines = true)
    (member : child ∈ expr.children) (has : HasAnchor child path) : HasAnchor expr path

/-- Whether the node is an aggregation, or a call that has a relation of its own. -/
def reportsPoint : Expr → Bool
  | .value (.aggregation ..) => true
  | .value (.call _ _ _ binding) => binding.any fun known => !combinesArguments known.function
  | _ => false

/-- All aggregations, and all calls that have a relation of their own, have a point. -/
def ReportsPoints (expr : Expr) : Prop :=
  ∀ part, expr.HasPart part → part.reportsPoint = true → ∃ point, part.point = .ok point

theorem ReportsPoints.child {child : Expr} (reports : expr.ReportsPoints)
    (member : child ∈ expr.children) : child.ReportsPoints :=
  fun part has => reports part (.within member has)

theorem ReportsPoints.node (here : expr.reportsPoint = true → ∃ point, expr.point = .ok point)
    (below : ∀ child ∈ expr.children, child.ReportsPoints) : expr.ReportsPoints := by
  intro part has
  cases has with
  | whole => exact here
  | within member has => exact below _ member part has

/-- A node is tied to a relation, or its children are, never both. -/
theorem anchor?_of_combines (combined : expr.combines = true) : expr.anchor? = none := by
  cases expr with
  | bool node => cases node <;> first | rfl | cases combined
  | value node =>
    cases node
    case call span name arguments binding =>
      rcases binding with _ | ⟨function, state⟩
      · rfl
      · cases function <;> first | rfl | cases combined
    all_goals first | rfl | cases combined

theorem hasAnchor_of_combines {path : Path} (combined : expr.combines = true) :
    expr.HasAnchor path ↔ ∃ child ∈ expr.children, child.HasAnchor path := by
  constructor
  · intro has
    cases has with
    | own tied => cases (anchor?_of_combines combined).symm.trans tied
    | within _ member has => exact ⟨_, member, has⟩
  · rintro ⟨child, member, has⟩
    exact .within combined member has

theorem hasAnchor_of_apart {path : Path} (apart : expr.combines = false) :
    expr.HasAnchor path ↔ expr.anchor? = some path := by
  constructor
  · intro has
    cases has with
    | own tied => exact tied
    | within combined => cases apart.symm.trans combined
  · exact .own

/-- A node that is tied to a relation is evaluated there. -/
theorem point_eq_anchor? (resolved : expr.Resolved root) (apart : expr.combines = false)
    (reports : expr.reportsPoint = true → ∃ point, expr.point = .ok point) :
    ∃ path, expr.anchor? = some path ∧ expr.point = .ok (some path) := by
  cases expr with
  | bool node =>
    cases node
    case boundary =>
      obtain ⟨path, rfl, _⟩ := resolved
      exact ⟨path, rfl, rfl⟩
    all_goals cases apart
  | value node =>
    cases node
    case path =>
      obtain ⟨path, rfl⟩ := Option.isSome_iff_exists.1 resolved
      exact ⟨path.home, rfl, rfl⟩
    case aggregation =>
      obtain ⟨place, found⟩ := reports rfl
      obtain ⟨path, rfl, _, _, _, _, _, _, rfl⟩ := ValueExpr.aggregation_point_eq_ok.1 found
      exact ⟨path, rfl, found⟩
    case call span name arguments binding =>
      obtain ⟨⟨function, state⟩, rfl, fits⟩ := resolved
      have apart : combinesArguments function = false := apart
      obtain ⟨place, found⟩ := reports (congrArg Bool.not apart)
      cases function
      case frequency =>
        cases state <;> cases found
        exact ⟨_, rfl, rfl⟩
      case size =>
        cases state
        case target path =>
          cases inner : path.parent? with
          | none => simp [point, ValueExpr.point, callPoint, inner] at found
          | some parent => exact ⟨parent, inner, by simp [point, ValueExpr.point, callPoint, inner]⟩
        all_goals cases found
      case about =>
        cases state <;> cases found
        exact ⟨_, rfl, rfl⟩
      all_goals cases apart
    all_goals cases apart

/-- Anchors are relations, and the point of an expression is the deepest of them. -/
theorem placedBy_point (isRelation : root.isRelation = true)
    (resolved : expr.Everywhere (Resolved root)) (reports : expr.ReportsPoints) :
    PlacedBy expr.HasAnchor expr.point ∧
      ∀ path, expr.HasAnchor path → path.isRelation = true := by
  induction expr using Expr.byChildren with
  | node expr ih =>
    have each : ∀ child ∈ expr.children, PlacedBy child.HasAnchor child.point ∧
        ∀ path, child.HasAnchor path → path.isRelation = true :=
      fun child member => ih child member (resolved.child member) (reports.child member)
    cases combined : expr.combines with
    | true =>
      rw [point_eq_combine combined]
      refine ⟨(placedBy_combine each).congr fun path => (hasAnchor_of_combines combined).symm, ?_⟩
      intro path has
      obtain ⟨child, member, has⟩ := (hasAnchor_of_combines combined).1 has
      exact (each child member).2 path has
    | false =>
      obtain ⟨path, tied, found⟩ := point_eq_anchor? resolved.here combined (reports expr .whole)
      have only : ∀ other, other = path ↔ expr.HasAnchor other := fun other => by
        rw [hasAnchor_of_apart combined, tied, Option.some.injEq, eq_comm]
      rw [found]
      refine ⟨(PlacedBy.single path).congr only, fun other has => ?_⟩
      obtain rfl := (only other).2 has
      exact onRelation isRelation resolved other found

end Expr

namespace Expr

/-- No two anchors lie on different branches. -/
def OnOnePath (expr : Expr) : Prop :=
  ∀ a b, expr.HasAnchor a → expr.HasAnchor b → a.areOffPath b = false

/-- The point of a bound expression is the deepest of its anchors. It is `none` exactly if there
are no anchors, and fails exactly if two of them are not on one path. Expressions with the same
anchors have the same point, whatever their operators and the order of their operands are. -/
theorem point_of_anchors {source : Expr} (isRelation : root.isRelation = true)
    (binds : BindsTo root source expr) (reports : expr.ReportsPoints) :
    (expr.point = .ok none ↔ ∀ path, ¬expr.HasAnchor path) ∧
    (∀ deepest, expr.point = .ok (some deepest) ↔ expr.OnOnePath ∧ expr.HasAnchor deepest ∧
      ∀ path, expr.HasAnchor path → path.isAncestorOf deepest = true) ∧
    ((∃ point, expr.point = .ok point) ↔ expr.OnOnePath) ∧
    ((∃ cause, expr.point = .error cause ∧ cause.kind = .scopeAxisError) ↔
      ∃ a b, expr.HasAnchor a ∧ expr.HasAnchor b ∧ a.areOffPath b = true) ∧
    ∀ source' expr', BindsTo root source' expr' → expr'.ReportsPoints →
      (∀ path, expr'.HasAnchor path ↔ expr.HasAnchor path) →
        ∀ point, expr'.point = .ok point ↔ expr.point = .ok point := by
  obtain ⟨placed, relations⟩ := placedBy_point isRelation binds.resolved reports
  refine ⟨placed.eq_none_iff, fun deepest => placed.eq_some_iff relations, placed.exists_ok_iff,
    placed.error_iff, fun source' expr' binds' reports' same point => ?_⟩
  obtain ⟨placed', -⟩ := placedBy_point isRelation binds'.resolved reports'
  have moved := placed'.congr same
  cases point with
  | none => rw [placed.eq_none_iff, moved.eq_none_iff]
  | some deepest => rw [placed.eq_some_iff relations, moved.eq_some_iff relations]

end Expr

/-! ### Two anchors on one path -/

private def devices : Context :=
  .start ⟨.relation ["user"],
    [.relation ["user"], .relation ["user", "sessions"], .relation ["user", "sessions", "events"],
      .field ["user", "sessions", "events"] "name" ⟨.string, false, false⟩]⟩ ⟨.utc, true⟩ .builtin

private def sessionEvents : Path := .relation ["user", "sessions", "events"]

/-- `size(user.sessions.events)`, which is known per session. -/
private def eventCount (bound : Bool) : ValueExpr :=
  .call .none "size"
    [.path .none "user.sessions.events" (if bound then some sessionEvents else none)]
    (if bound then some ⟨.size, .target sessionEvents⟩ else none)

/-- `COUNT(user.sessions.events.name SCOPE user)`. -/
private def nameCount (bound : Bool) : ValueExpr :=
  .aggregation .none .count none
    (.path .none "user.sessions.events.name"
      (if bound then some (.field ["user", "sessions", "events"] "name" ⟨.string, false, false⟩)
        else none)) none (some "user") (if bound then some Bind.defaultQuanta else none)
    (if bound then some (.relation ["user"]) else none)

private def share (bound : Bool) : Expr :=
  .value (.ofBinary .divide (eventCount bound) (nameCount bound))

/-- Events per session by names per user: there is one value for each session, since the users
contain the sessions. -/
theorem point_of_anchors_share :
    devices.schema.root.isRelation = true ∧
      Expr.BindsTo devices.schema.root (share false) (share true) ∧ (share true).ReportsPoints ∧
      (share true).OnOnePath ∧ (share true).HasAnchor (.relation ["user", "sessions"]) ∧
      ∀ path, (share true).HasAnchor path →
        path.isAncestorOf (.relation ["user", "sessions"]) = true := by
  have binds : Expr.BindsTo devices.schema.root (share false) (share true) := ⟨devices, rfl, rfl⟩
  have named (name : String) (path : Path) :
      (Expr.value (.path .none name (some path))).ReportsPoints :=
    .node nofun (List.forall_mem_nil _)
  have size : (Expr.value (eventCount true)).ReportsPoints :=
    .node (fun _ => ⟨_, rfl⟩) (List.forall_mem_singleton.2 (named _ _))
  have quanta : (Expr.value Bind.defaultQuanta).ReportsPoints := .node nofun (List.forall_mem_nil _)
  have count : (Expr.value (nameCount true)).ReportsPoints :=
    .node (fun _ => ⟨_, rfl⟩)
      (List.forall_mem_cons.2 ⟨named _ _, List.forall_mem_singleton.2 quanta⟩)
  have reports : (share true).ReportsPoints :=
    .node nofun (List.forall_mem_cons.2 ⟨size, List.forall_mem_singleton.2 count⟩)
  exact ⟨rfl, binds, reports, ((Expr.point_of_anchors rfl binds reports).2.1 _).1 rfl⟩

end EventQuery
