import EventQuery.Proofs.Production
import EventQuery.Proofs.Scanning
import EventQuery.Proofs.Tree
import EventQuery.Reading.Token

/-!
Where nodes stand in the text they were read from. The tokens of a text are on a line: they
follow one another and do not overlap. A `Passage` is the way of the cursor over some of them,
with the nodes that were read on the way, which are on a line themselves; passages are put
together, and the nodes of one become the children of the node that spans it.
-/
namespace EventQuery

/-- Ranges that are not empty and follow one another between two places. -/
inductive Span.Line : Nat → List Span → Nat → Prop where
  | nil {first last : Nat} (order : first ≤ last) : Line first [] last
  | cons {first last : Nat} {span : Span} {spans : List Span} (behind : first ≤ span.start)
      (nonempty : span.start < span.stop) (others : Line span.stop spans last) :
      Line first (span :: spans) last

namespace Span.Line

variable {first middle last : Nat} {spans others : List Span}

theorem le (line : Line first spans last) : first ≤ last := by
  induction line with
  | nil order => exact order
  | cons behind nonempty _ ih => omega

theorem mono {first' last' : Nat} (line : Line first spans last) (sooner : first' ≤ first)
    (later : last ≤ last') : Line first' spans last' := by
  induction line generalizing first' with
  | nil order => exact .nil (by omega)
  | cons behind nonempty _ ih => exact .cons (Nat.le_trans sooner behind) nonempty (ih (Nat.le_refl _) later)

theorem append (line : Line first spans middle) (more : Line middle others last) :
    Line first (spans ++ others) last := by
  induction line with
  | nil order => exact more.mono order (Nat.le_refl _)
  | cons behind nonempty _ ih => exact .cons behind nonempty (ih more)

theorem within (line : Line first spans last) :
    ∀ span ∈ spans, first ≤ span.start ∧ span.stop ≤ last := by
  induction line with
  | nil => exact List.forall_mem_nil _
  | cons behind nonempty others ih =>
    refine List.forall_mem_cons.2 ⟨⟨behind, others.le⟩, fun span member => ?_⟩
    have inside := ih span member
    omega

theorem pairwise (line : Line first spans last) :
    spans.Pairwise fun span next => span.stop ≤ next.start := by
  induction line with
  | nil => exact .nil
  | cons _ _ others ih => exact .cons (fun next member => (others.within next member).1) ih

end Span.Line

namespace Reading

variable {τ : Type}

/-! ### The tokens of a text -/

theorem byteLength_append (chars others : List Char) :
    byteLength (chars ++ others) = byteLength chars + byteLength others := by
  induction chars with
  | nil => simp [byteLength]
  | cons c chars ih => simp [byteLength, ih, Nat.add_assoc]

theorem byteLength_toList (text : String) : byteLength text.toList = text.utf8ByteSize := by
  have ofList (chars : List Char) : byteLength chars = (String.ofList chars).utf8ByteSize := by
    induction chars with
    | nil => simp [byteLength]
    | cons c chars ih =>
      have split : String.ofList (c :: chars) = String.singleton c ++ String.ofList chars := by
        rw [String.singleton_eq_ofList, ← String.ofList_append, List.singleton_append]
      rw [byteLength, ih, split, String.utf8ByteSize_append, String.utf8ByteSize_singleton]
  rw [ofList, String.ofList_toList]

/-- Tokens take up the text from left to right. -/
theorem scanFrom_line {lexeme : Char → List Char → Lexeme τ} {complaint : String → String}
    {offset : Nat} {chars : List Char} {placed : List (Placed τ)}
    (scans : scanFrom lexeme complaint offset chars = .ok placed) :
    Span.Line offset (placed.map Placed.span) (offset + byteLength chars) := by
  fun_induction scanFrom lexeme complaint offset chars generalizing placed with
  | case1 =>
    cases scans
    exact .nil (Nat.le_add_right _ _)
  | case2 offset c rest blank ih =>
    refine (ih scans).mono (Nat.le_add_right _ _) ?_
    exact Nat.le_of_eq (Nat.add_assoc ..)
  | case3 offset c rest visible token more taken stop =>
    rename_i ih
    obtain ⟨others, scans', same⟩ := Outcome.bind_eq_ok.1 scans
    obtain rfl := Outcome.pure_eq_ok.1 same
    have wide := c.utf8Size_pos
    have parts := byteLength_append (rest.take more) (rest.drop more)
    rw [List.take_append_drop] at parts
    have ends : stop + byteLength (rest.drop more) = offset + byteLength (c :: rest) := by
      simp only [stop, byteLength]
      omega
    refine .cons (Nat.le_refl _) ?_ (ends ▸ ih scans')
    simp only [byteLength, stop]
    omega
  | case4 => cases scans

/-- A range that starts where one of the tokens starts and ends where one ends. -/
structure Bounded (tokens : List (Placed τ)) (span : Span) : Prop where
  nonempty : span.start < span.stop
  starts : ∃ token ∈ tokens, token.span.start = span.start
  stops : ∃ token ∈ tokens, token.span.stop = span.stop

/-- In front of the cursor are the last ones of these tokens, behind what was read. -/
structure Cursor.Sound (tokens : List (Placed τ)) (cursor : Cursor τ) : Prop where
  suffix : cursor.rest <:+ tokens
  line : Span.Line cursor.last (cursor.rest.map Placed.span) cursor.stop

namespace Cursor.Sound

variable {tokens others : List (Placed τ)} {cursor : Cursor τ} {placed : Placed τ}

theorem last_le (sound : cursor.Sound tokens) : cursor.last ≤ cursor.place.start := by
  have line := sound.line
  unfold Cursor.place
  cases shape : cursor.rest with
  | nil =>
    rw [shape] at line
    exact line.le
  | cons placed others =>
    rw [shape] at line
    cases line with
    | cons behind => exact behind

theorem behind (sound : cursor.Sound tokens) (shape : cursor.rest = placed :: others) :
    (cursor.behind placed others).Sound tokens := by
  obtain ⟨suffix, line⟩ := sound
  rw [shape] at suffix line
  cases line with
  | cons _ _ line => exact ⟨(List.suffix_cons placed others).trans suffix, line⟩

theorem bounded (sound : cursor.Sound tokens) (shape : cursor.rest = placed :: others) :
    Bounded tokens cursor.place := by
  obtain ⟨suffix, line⟩ := sound
  rw [shape] at suffix line
  have member : placed ∈ tokens := suffix.subset List.mem_cons_self
  have place : cursor.place = placed.span := by rw [Cursor.place, shape]
  cases line with
  | cons _ nonempty _ => exact place ▸ ⟨nonempty, ⟨placed, member, rfl⟩, placed, member, rfl⟩

end Cursor.Sound

/-! ### Nodes -/

/-- Every node of the expression goes from token to token, over its children in turn. -/
def Faithful (tokens : List (Placed τ)) (expr : Expr) : Prop :=
  expr.Everywhere fun node => Bounded tokens node.span ∧
    Span.Line node.span.start (node.children.map Expr.span) node.span.stop

/-- From the first cursor to the second, at least one token was read, and these nodes in turn. -/
structure Passage (tokens : List (Placed τ)) (cursor : Cursor τ) (nodes : List Expr)
    (cursor' : Cursor τ) : Prop where
  sound : cursor'.Sound tokens
  bounded : Bounded tokens ⟨cursor.place.start, cursor'.last⟩
  line : Span.Line cursor.place.start (nodes.map Expr.span) cursor'.last
  faithful : ∀ node ∈ nodes, Faithful tokens node

variable {tokens others : List (Placed τ)} {cursor cursor' cursor'' : Cursor τ} {placed : Placed τ}
  {expr : Expr} {nodes nodes' : List Expr}

theorem Cursor.Sound.passage (sound : cursor.Sound tokens)
    (shape : cursor.rest = placed :: others) :
    Passage tokens cursor [] (cursor.behind placed others) := by
  have place : cursor.place = placed.span := by rw [Cursor.place, shape]
  have bounded := sound.bounded shape
  rw [place] at bounded
  refine ⟨sound.behind shape, place ▸ bounded, .nil ?_, List.forall_mem_nil _⟩
  rw [place]
  exact Nat.le_of_lt bounded.nonempty

namespace Passage

theorem trans (first : Passage tokens cursor nodes cursor')
    (second : Passage tokens cursor' nodes' cursor'') :
    Passage tokens cursor (nodes ++ nodes') cursor'' := by
  have between := first.sound.last_le
  refine ⟨second.sound, ⟨?_, first.bounded.starts, second.bounded.stops⟩, ?_, ?_⟩
  · have before : cursor.place.start < cursor'.last := first.bounded.nonempty
    have behind : cursor'.place.start < cursor''.last := second.bounded.nonempty
    show cursor.place.start < cursor''.last
    omega
  · rw [List.map_append]
    exact first.line.append (second.line.mono between (Nat.le_refl _))
  · exact List.forall_mem_append.2 ⟨first.faithful, second.faithful⟩

/-- The node over all that was read on the way. -/
theorem node (passage : Passage tokens cursor nodes cursor')
    (span : expr.span = ⟨cursor.place.start, max cursor.place.start cursor'.last⟩)
    (children : expr.children = nodes) : Passage tokens cursor [expr] cursor' := by
  obtain ⟨sound, bounded, line, faithful⟩ := passage
  have nonempty : cursor.place.start < cursor'.last := bounded.nonempty
  rw [Nat.max_eq_right (Nat.le_of_lt nonempty)] at span
  have alone : Span.Line cursor.place.start [expr.span] cursor'.last :=
    span ▸ .cons (Nat.le_refl _) nonempty (.nil (Nat.le_refl _))
  refine ⟨sound, bounded, alone, List.forall_mem_singleton.2 (.node ⟨by rwa [span], ?_⟩ ?_)⟩
  · rwa [span, children]
  · rwa [children]

/-- What was read on the way is no part of the tree. -/
theorem forget (passage : Passage tokens cursor nodes cursor') : Passage tokens cursor [] cursor' :=
  ⟨passage.sound, passage.bounded, .nil passage.line.le, List.forall_mem_nil _⟩

theorem single (passage : Passage tokens cursor [expr] cursor') : Faithful tokens expr :=
  passage.faithful expr List.mem_cons_self

/-- Another node that does not reach beyond the one that was read. -/
theorem replace {other : Expr} (passage : Passage tokens cursor [expr] cursor')
    (faithful : Faithful tokens other) (starts : expr.span.start ≤ other.span.start)
    (stops : other.span.stop ≤ expr.span.stop) : Passage tokens cursor [other] cursor' := by
  obtain ⟨sound, bounded, line, -⟩ := passage
  refine ⟨sound, bounded, ?_, List.forall_mem_singleton.2 faithful⟩
  cases line with
  | cons behind _ others =>
    exact .cons (Nat.le_trans behind starts) faithful.here.1.nonempty (others.mono stops (Nat.le_refl _))

/-- A node without children in the place of the one that was read. -/
theorem childless {other : Expr} (passage : Passage tokens cursor [expr] cursor')
    (span : other.span = expr.span) (children : other.children = []) :
    Passage tokens cursor [other] cursor' := by
  have bounded := passage.single.here.1
  rw [← span] at bounded
  refine passage.replace (.node ⟨bounded, ?_⟩ ?_) (span ▸ Nat.le_refl _) (span ▸ Nat.le_refl _)
  · rw [children]
    exact .nil (Nat.le_of_lt bounded.nonempty)
  · rw [children]
    exact List.forall_mem_nil _


end Passage

/-- A node that is a single token. -/
theorem Cursor.Sound.leaf (sound : cursor.Sound tokens) (shape : cursor.rest = placed :: others)
    (span : expr.span = cursor.place) (children : expr.children = []) :
    Passage tokens cursor [expr] (cursor.behind placed others) := by
  have place : cursor.place = placed.span := by rw [Cursor.place, shape]
  have wide : cursor.place.start ≤ cursor.place.stop := Nat.le_of_lt (sound.bounded shape).nonempty
  refine (sound.passage shape).node ?_ children
  rw [span, Cursor.behind, ← place, Nat.max_eq_right wide]

/-- A passage, or none. -/
inductive Perhaps (tokens : List (Placed τ)) (cursor : Cursor τ) : List Expr → Cursor τ → Prop where
  | nothing (sound : cursor.Sound tokens) : Perhaps tokens cursor [] cursor
  | some {nodes : List Expr} {cursor' : Cursor τ} (passage : Passage tokens cursor nodes cursor') :
      Perhaps tokens cursor nodes cursor'

theorem Perhaps.sound (perhaps : Perhaps tokens cursor nodes cursor') : cursor'.Sound tokens := by
  cases perhaps with
  | nothing sound => exact sound
  | some passage => exact passage.sound

theorem Perhaps.before (perhaps : Perhaps tokens cursor nodes cursor')
    (passage : Passage tokens cursor' nodes' cursor'') :
    Passage tokens cursor (nodes ++ nodes') cursor'' := by
  cases perhaps with
  | nothing sound => exact passage
  | some first => exact first.trans passage

theorem Passage.perhaps (passage : Passage tokens cursor nodes cursor')
    (more : Perhaps tokens cursor' nodes' cursor'') :
    Passage tokens cursor (nodes ++ nodes') cursor'' := by
  cases more with
  | nothing sound => rwa [List.append_nil]
  | some second => exact passage.trans second

end Reading

end EventQuery
