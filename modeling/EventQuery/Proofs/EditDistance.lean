import EventQuery.Text.Distance
import Mathlib.Order.Bounds.Basic
import Mathlib.Order.MinMax

/-!
The edit distance is the least number of edits. Edits in any order come to an alignment of the
two words, which goes through both at once and costs no more; the rows hold the costs of the best
alignments of the beginnings of the words. The closest candidate is the first one of those at the
least distance.
-/
namespace EventQuery.Text.Distance

variable {a b c : List Char} {m n : Nat}

/-! ### Edits -/

/-- One character is inserted, deleted or substituted. -/
inductive Edit : List Char → List Char → Prop where
  | insert (before : List Char) (x : Char) (behind : List Char) :
    Edit (before ++ behind) (before ++ x :: behind)
  | delete (before : List Char) (x : Char) (behind : List Char) :
    Edit (before ++ x :: behind) (before ++ behind)
  | substitute (before : List Char) (x y : Char) (behind : List Char) :
    Edit (before ++ x :: behind) (before ++ y :: behind)

/-- A number of edits, one after the other, turn the first word into the second. -/
inductive Edits : Nat → List Char → List Char → Prop where
  | refl (a : List Char) : Edits 0 a a
  | step {n : Nat} {a b c : List Char} (edit : Edit a b) (rest : Edits n b c) : Edits (n + 1) a c

namespace Edit

theorem symm (edit : Edit a b) : Edit b a := by
  cases edit with
  | insert before x behind => exact .delete before x behind
  | delete before x behind => exact .insert before x behind
  | substitute before x y behind => exact .substitute before y x behind

theorem cons (first : Char) (edit : Edit a b) : Edit (first :: a) (first :: b) := by
  cases edit with
  | insert before x behind => exact .insert (first :: before) x behind
  | delete before x behind => exact .delete (first :: before) x behind
  | substitute before x y behind => exact .substitute (first :: before) x y behind

theorem reverse (edit : Edit a b) : Edit a.reverse b.reverse := by
  cases edit with
  | insert before x behind => simpa using Edit.insert behind.reverse x before.reverse
  | delete before x behind => simpa using Edit.delete behind.reverse x before.reverse
  | substitute before x y behind => simpa using Edit.substitute behind.reverse x y before.reverse

end Edit

namespace Edits

theorem trans (first : Edits m a b) (second : Edits n b c) : Edits (m + n) a c := by
  induction first with
  | refl => rwa [Nat.zero_add]
  | step edit _ ih =>
    rw [Nat.add_right_comm]
    exact .step edit (ih second)

theorem symm (edits : Edits n a b) : Edits n b a := by
  induction edits with
  | refl a => exact .refl a
  | step edit _ ih => exact ih.trans (.step edit.symm (.refl _))

theorem cons (first : Char) (edits : Edits n a b) : Edits n (first :: a) (first :: b) := by
  induction edits with
  | refl a => exact .refl (first :: a)
  | step edit _ ih => exact .step (edit.cons first) ih

theorem reverse (edits : Edits n a b) : Edits n a.reverse b.reverse := by
  induction edits with
  | refl a => exact .refl a.reverse
  | step edit _ ih => exact .step edit.reverse ih

theorem eq_of_zero (edits : Edits 0 a b) : a = b := by
  cases edits
  rfl

theorem reverse_iff : Edits n a.reverse b.reverse ↔ Edits n a b := by
  constructor
  · intro edits
    simpa using edits.reverse
  · exact reverse

end Edits

/-! ### Alignments -/

/-- Both words are gone through at once. A character is kept, or it is substituted, deleted or
inserted at the cost of one edit. -/
inductive Aligned : Nat → List Char → List Char → Prop where
  | nil : Aligned 0 [] []
  | keep {n : Nat} {a b : List Char} (x : Char) (rest : Aligned n a b) : Aligned n (x :: a) (x :: b)
  | substitute {n : Nat} {a b : List Char} (x y : Char) (rest : Aligned n a b) :
    Aligned (n + 1) (x :: a) (y :: b)
  | delete {n : Nat} {a b : List Char} (x : Char) (rest : Aligned n a b) :
    Aligned (n + 1) (x :: a) b
  | insert {n : Nat} {a b : List Char} (y : Char) (rest : Aligned n a b) :
    Aligned (n + 1) a (y :: b)

theorem Aligned.edits (aligned : Aligned n a b) : Edits n a b := by
  induction aligned with
  | nil => exact .refl []
  | keep x _ ih => exact ih.cons x
  | substitute x y _ ih => exact .step (.substitute [] x y _) (ih.cons y)
  | delete x _ ih => exact .step (.delete [] x _) ih
  | insert y _ ih => exact .step (.insert [] y _) (ih.cons y)

/-- Some alignment costs no more than a number of edits. -/
def AlignedWithin (n : Nat) (a b : List Char) : Prop := ∃ k ≤ n, Aligned k a b

namespace AlignedWithin

protected theorem refl (a : List Char) : AlignedWithin 0 a a := by
  refine ⟨0, Nat.le_refl 0, ?_⟩
  induction a with
  | nil => exact .nil
  | cons x a ih => exact .keep x ih

theorem keep (x : Char) (rest : AlignedWithin n a b) : AlignedWithin n (x :: a) (x :: b) := by
  obtain ⟨k, least, aligned⟩ := rest
  exact ⟨k, least, .keep x aligned⟩

theorem substitute (x y : Char) (rest : AlignedWithin n a b) :
    AlignedWithin (n + 1) (x :: a) (y :: b) := by
  obtain ⟨k, least, aligned⟩ := rest
  exact ⟨k + 1, Nat.succ_le_succ least, .substitute x y aligned⟩

theorem delete (x : Char) (rest : AlignedWithin n a b) : AlignedWithin (n + 1) (x :: a) b := by
  obtain ⟨k, least, aligned⟩ := rest
  exact ⟨k + 1, Nat.succ_le_succ least, .delete x aligned⟩

theorem insert (y : Char) (rest : AlignedWithin n a b) : AlignedWithin (n + 1) a (y :: b) := by
  obtain ⟨k, least, aligned⟩ := rest
  exact ⟨k + 1, Nat.succ_le_succ least, .insert y aligned⟩

theorem mono (within : AlignedWithin m a b) (le : m ≤ n) : AlignedWithin n a b := by
  obtain ⟨k, least, aligned⟩ := within
  exact ⟨k, least.trans le, aligned⟩

/-- The first character of a word can be left out at the cost of one edit. -/
theorem tail {x : Char} (aligned : Aligned n (x :: a) b) : AlignedWithin (n + 1) a b := by
  generalize whole : x :: a = word at aligned
  induction aligned with
  | nil => cases whole
  | keep y rest _ =>
    cases whole
    exact .insert x ⟨_, Nat.le_refl _, rest⟩
  | substitute y z rest _ =>
    cases whole
    exact .mono (.insert z ⟨_, Nat.le_refl _, rest⟩) (Nat.le_succ _)
  | delete y rest _ =>
    cases whole
    exact ⟨_, Nat.le_add_right _ 2, rest⟩
  | insert y _ ih => exact .insert y (ih whole)

/-- The first character of a word can be another one at the cost of one edit. -/
theorem head {x y : Char} (aligned : Aligned n (x :: a) b) : AlignedWithin (n + 1) (y :: a) b := by
  generalize whole : x :: a = word at aligned
  induction aligned with
  | nil => cases whole
  | keep z rest _ =>
    cases whole
    exact .substitute y x ⟨_, Nat.le_refl _, rest⟩
  | substitute z z' rest _ =>
    cases whole
    exact .mono (.substitute y z' ⟨_, Nat.le_refl _, rest⟩) (Nat.le_succ _)
  | delete z rest _ =>
    cases whole
    exact .mono (.delete y ⟨_, Nat.le_refl _, rest⟩) (Nat.le_succ _)
  | insert z _ ih => exact .insert z (ih whole)

/-- What costs one edit behind a beginning costs one edit with it. -/
theorem cons {x : Char} {a' : List Char}
    (behind : ∀ n b, Aligned n a b → AlignedWithin (n + 1) a' b)
    (aligned : Aligned n (x :: a) b) : AlignedWithin (n + 1) (x :: a') b := by
  generalize whole : x :: a = word at aligned
  induction aligned with
  | nil => cases whole
  | keep y rest _ =>
    cases whole
    exact .keep x (behind _ _ rest)
  | substitute y z rest _ =>
    cases whole
    exact .substitute x z (behind _ _ rest)
  | delete y rest _ =>
    cases whole
    exact .delete x (behind _ _ rest)
  | insert y _ ih => exact .insert y (ih whole)

theorem append (before : List Char) {a' : List Char}
    (behind : ∀ n b, Aligned n a b → AlignedWithin (n + 1) a' b) (n : Nat) (b : List Char)
    (aligned : Aligned n (before ++ a) b) : AlignedWithin (n + 1) (before ++ a') b := by
  induction before generalizing n b with
  | nil => exact behind n b aligned
  | cons x before ih => exact cons ih aligned

theorem of_edit (edit : Edit a b) (aligned : Aligned n b c) : AlignedWithin (n + 1) a c := by
  cases edit with
  | insert before x behind => exact append before (fun _ _ => tail) n c aligned
  | delete before x behind =>
    exact append before (fun _ _ rest => .delete x ⟨_, Nat.le_refl _, rest⟩) n c aligned
  | substitute before x y behind => exact append before (fun _ _ => head) n c aligned

end AlignedWithin

theorem Edits.alignedWithin (edits : Edits n a b) : AlignedWithin n a b := by
  induction edits with
  | refl a => exact .refl a
  | step edit _ ih =>
    obtain ⟨k, least, aligned⟩ := ih
    exact (AlignedWithin.of_edit edit aligned).mono (Nat.succ_le_succ least)

/-! ### The best alignment -/

/-- The cost of the best alignment, by its first step. -/
def leastCost : List Char → List Char → Nat
  | [], b => b.length
  | x :: a, [] => a.length + 1
  | x :: a, y :: b =>
    min (min (leastCost a (y :: b) + 1) (leastCost (x :: a) b + 1))
      (leastCost a b + if x = y then 0 else 1)

theorem leastCost_nil_right (a : List Char) : leastCost a [] = a.length := by
  cases a <;> simp [leastCost]

theorem leastCost_delete (x : Char) (a b : List Char) :
    leastCost (x :: a) b ≤ leastCost a b + 1 := by
  cases b with
  | nil => simp [leastCost_nil_right]
  | cons y b =>
    rw [leastCost]
    exact (Nat.min_le_left _ _).trans (Nat.min_le_left _ _)

theorem leastCost_insert (y : Char) (a b : List Char) :
    leastCost a (y :: b) ≤ leastCost a b + 1 := by
  cases a with
  | nil => simp [leastCost]
  | cons x a =>
    rw [leastCost]
    exact (Nat.min_le_left _ _).trans (Nat.min_le_right _ _)

theorem leastCost_both (x y : Char) (a b : List Char) :
    leastCost (x :: a) (y :: b) ≤ leastCost a b + if x = y then 0 else 1 := by
  rw [leastCost]
  exact Nat.min_le_right _ _

theorem leastCost_le (aligned : Aligned n a b) : leastCost a b ≤ n := by
  induction aligned with
  | nil => simp [leastCost]
  | @keep _ a b x _ ih =>
    have step := leastCost_both x x a b
    rw [if_pos rfl] at step
    exact step.trans ih
  | @substitute _ a b x y _ ih =>
    have step := leastCost_both x y a b
    split at step <;> omega
  | delete x _ ih => exact (leastCost_delete x _ _).trans (Nat.succ_le_succ ih)
  | insert y _ ih => exact (leastCost_insert y _ _).trans (Nat.succ_le_succ ih)

theorem aligned_insertions (b : List Char) : Aligned b.length [] b := by
  induction b with
  | nil => exact .nil
  | cons y b ih => exact .insert y ih

theorem aligned_deletions (a : List Char) : Aligned a.length a [] := by
  induction a with
  | nil => exact .nil
  | cons x a ih => exact .delete x ih

theorem aligned_leastCost (a b : List Char) : Aligned (leastCost a b) a b := by
  fun_induction leastCost a b with
  | case1 b => exact aligned_insertions b
  | case2 x a => exact .delete x (aligned_deletions a)
  | case3 x a y b deleted inserted both =>
    rcases min_choice (min (leastCost a (y :: b) + 1) (leastCost (x :: a) b + 1))
      (leastCost a b + if x = y then 0 else 1) with least | least <;> rw [least]
    · rcases min_choice (leastCost a (y :: b) + 1) (leastCost (x :: a) b + 1) with least | least <;>
        rw [least]
      · exact .delete x deleted
      · exact .insert y inserted
    · split
      case isTrue same =>
        subst same
        exact .keep x both
      case isFalse => exact .substitute x y both

/-- No number of edits in any order is below the cost of the best alignment. -/
theorem isLeast_leastCost (a b : List Char) : IsLeast {n | Edits n a b} (leastCost a b) := by
  refine ⟨(aligned_leastCost a b).edits, fun n edits => ?_⟩
  obtain ⟨k, least, aligned⟩ := edits.alignedWithin
  exact (leastCost_le aligned).trans least

/-! ### Rows -/

/-- The costs for the beginnings of a word, read backwards, from the one that ends before `rest`
on. -/
def costs (a : List Char) (before : List Char) : List Char → List Nat
  | [] => [leastCost a before]
  | y :: rest => leastCost a before :: costs a (y :: before) rest

theorem costs_eq_cons (a before rest : List Char) :
    ∃ others, costs a before rest = leastCost a before :: others := by
  cases rest <;> exact ⟨_, rfl⟩

theorem firstRow_eq (word : List Char) : firstRow word = costs [] [] word := by
  have from_length (before : List Char) :
      costs [] before word = List.range' before.length (word.length + 1) := by
    induction word generalizing before with
    | nil => simp [costs, leastCost]
    | cons y rest ih => simp [costs, leastCost, ih, List.range'_succ]
  rw [from_length, firstRow, List.range_eq_range', List.length_nil]

theorem rowFrom_eq (x : Char) (a before rest : List Char) :
    leastCost (x :: a) before :: rowFrom x rest (leastCost (x :: a) before) (costs a before rest) =
      costs (x :: a) before rest := by
  induction rest generalizing before with
  | nil => rfl
  | cons y rest ih =>
    obtain ⟨others, shape⟩ := costs_eq_cons a (y :: before) rest
    have entry : leastCost (x :: a) (y :: before) =
      min (min (leastCost a (y :: before) + 1) (leastCost (x :: a) before + 1))
        (leastCost a before + if x = y then 0 else 1) := leastCost.eq_3 ..
    rw [costs, costs, ← ih, shape, rowFrom, ← entry]

theorem nextRow_eq (x : Char) (a word : List Char) :
    nextRow x word (costs a [] word) = costs (x :: a) [] word := by
  obtain ⟨others, shape⟩ := costs_eq_cons a [] word
  have first : (costs a [] word).headD 0 + 1 = leastCost (x :: a) [] := by
    rw [shape, List.headD_cons, leastCost_nil_right, leastCost_nil_right, List.length_cons]
  rw [nextRow, first, rowFrom_eq]

theorem foldl_nextRow_eq (a before word : List Char) :
    a.foldl (fun row x => nextRow x word row) (costs before [] word) =
      costs (a.reverse ++ before) [] word := by
  induction a generalizing before with
  | nil => rfl
  | cons x a ih => rw [List.foldl_cons, nextRow_eq, ih, List.reverse_cons, List.append_assoc,
      List.singleton_append]

theorem getLastD_costs (a before rest : List Char) (other : Nat) :
    (costs a before rest).getLastD other = leastCost a (rest.reverse ++ before) := by
  induction rest generalizing before other with
  | nil => rfl
  | cons y rest ih =>
    rw [costs, List.getLastD_cons, ih, List.reverse_cons, List.append_assoc, List.singleton_append]

theorem distance_eq (a b : List Char) : distance a b = leastCost a.reverse b.reverse := by
  rw [distance, firstRow_eq, foldl_nextRow_eq, getLastD_costs, List.append_nil, List.append_nil]

theorem isLeast_distance (a b : List Char) : IsLeast {n | Edits n a b} (distance a b) := by
  have least := isLeast_leastCost a.reverse b.reverse
  simp only [Edits.reverse_iff] at least
  rwa [← distance_eq] at least

/-! ### The distance of two names -/

theorem isLeast_editDistance (a b : String) :
    IsLeast {n | Edits n a.toList b.toList} (editDistance a b) := isLeast_distance a.toList b.toList

theorem editDistance_eq_zero {a b : String} : editDistance a b = 0 ↔ a = b := by
  have least := isLeast_editDistance a b
  constructor
  · intro zero
    have edits : Edits 0 a.toList b.toList := zero ▸ least.1
    exact String.toList_injective edits.eq_of_zero
  · rintro rfl
    exact Nat.le_zero.1 (least.2 (.refl a.toList))

theorem editDistance_comm (a b : String) : editDistance a b = editDistance b a :=
  Nat.le_antisymm ((isLeast_editDistance a b).2 (isLeast_editDistance b a).1.symm)
    ((isLeast_editDistance b a).2 (isLeast_editDistance a b).1.symm)

theorem editDistance_triangle (a b c : String) :
    editDistance a c ≤ editDistance a b + editDistance b c :=
  (isLeast_editDistance a c).2
    ((isLeast_editDistance a b).1.trans (isLeast_editDistance b c).1)

/-! ### The closest candidate -/

variable {name found : String} {far bound : Nat}

/-- The first of those candidates that are at the least distance from a name. -/
def IsFirstClosest (name : String) (candidates : List String) (found : String) : Prop :=
  ∃ before behind, candidates = before ++ found :: behind ∧
    (∀ candidate ∈ before, editDistance name found < editDistance name candidate) ∧
    ∀ candidate ∈ behind, editDistance name found ≤ editDistance name candidate

theorem closest_eq_none {candidates : List String} :
    closest name candidates = none ↔ candidates = [] := by
  cases candidates with
  | nil => simp [closest]
  | cons candidate rest =>
    rw [closest]
    split
    · split <;> simp
    · simp

theorem IsFirstClosest.cons {candidate : String} {rest : List String}
    (first : IsFirstClosest name rest found)
    (farther : editDistance name found < editDistance name candidate) :
    IsFirstClosest name (candidate :: rest) found := by
  obtain ⟨before, behind, rfl, earlier, later⟩ := first
  exact ⟨candidate :: before, behind, rfl, List.forall_mem_cons.2 ⟨farther, earlier⟩, later⟩

theorem IsFirstClosest.le {candidates : List String}
    (first : IsFirstClosest name candidates found) :
    ∀ candidate ∈ candidates, editDistance name found ≤ editDistance name candidate := by
  obtain ⟨before, behind, rfl, earlier, later⟩ := first
  intro candidate listed
  rcases List.mem_append.1 listed with inside | listed
  · exact (earlier candidate inside).le
  · rcases List.mem_cons.1 listed with rfl | inside
    · exact Nat.le_refl _
    · exact later candidate inside

theorem closest_eq_some {candidates : List String}
    (least : closest name candidates = some (found, far)) :
    editDistance name found = far ∧ IsFirstClosest name candidates found := by
  induction candidates generalizing found far with
  | nil => cases least
  | cons candidate rest ih =>
    rw [closest] at least
    cases others : closest name rest with
    | none =>
      rw [others] at least
      cases least
      rw [closest_eq_none] at others
      subst others
      exact ⟨rfl, [], [], rfl, by simp, by simp⟩
    | some next =>
      obtain ⟨other, distance⟩ := next
      obtain ⟨rfl, first⟩ := ih others
      rw [others] at least
      dsimp only at least
      split at least
      case isTrue near =>
        cases least
        exact ⟨rfl, [], rest, rfl, by simp, fun candidate listed => near.trans (first.le _ listed)⟩
      case isFalse farther =>
        cases least
        exact ⟨rfl, first.cons (Nat.lt_of_not_le farther)⟩

/-- Candidates that are too far away do not matter. -/
theorem IsFirstClosest.of_filter {candidates : List String}
    (first : IsFirstClosest name
      (candidates.filter fun candidate => editDistance name candidate ≤ bound) found) :
    editDistance name found ≤ bound ∧ IsFirstClosest name candidates found := by
  obtain ⟨before, behind, split, earlier, later⟩ := first
  obtain ⟨start, rest, rfl, rfl, remaining⟩ := List.filter_eq_append_iff.1 split
  obtain ⟨between, last, rfl, far, near, rfl⟩ := List.filter_eq_cons_iff.1 remaining
  replace near : editDistance name found ≤ bound := of_decide_eq_true near
  refine ⟨near, start ++ between, last, (List.append_assoc ..).symm, ?_, ?_⟩
  · intro candidate listed
    rcases List.mem_append.1 listed with inside | inside
    · by_cases close : editDistance name candidate ≤ bound
      · exact earlier candidate (List.mem_filter.2 ⟨inside, decide_eq_true close⟩)
      · omega
    · have beyond : ¬editDistance name candidate ≤ bound := by simpa using far candidate inside
      omega
  · intro candidate inside
    by_cases close : editDistance name candidate ≤ bound
    · exact later candidate (List.mem_filter.2 ⟨inside, decide_eq_true close⟩)
    · omega

theorem similar_eq_none {candidates : List String} : similar name candidates bound = none ↔
    ∀ candidate ∈ candidates, bound < editDistance name candidate := by
  simp [similar, closest_eq_none, List.filter_eq_nil_iff]

theorem similar_eq_some {candidates : List String}
    (similar : similar name candidates bound = some found) :
    editDistance name found ≤ bound ∧ IsFirstClosest name candidates found := by
  obtain ⟨⟨_, far⟩, least, rfl⟩ := Option.map_eq_some_iff.1 similar
  exact (closest_eq_some least).2.of_filter

/-- The distance of two names is the least number of characters to insert, delete and substitute
on the way from one to the other, so it is a metric. There is a similar name exactly if some
candidate is within the bound, and then it is the first one of those at the least distance. -/
theorem similar_of_least_edits :
    (∀ a b : String, IsLeast {n | Edits n a.toList b.toList} (editDistance a b)) ∧
    (∀ a b : String, editDistance a b = 0 ↔ a = b) ∧
    (∀ a b : String, editDistance a b = editDistance b a) ∧
    (∀ a b c : String, editDistance a c ≤ editDistance a b + editDistance b c) ∧
    ∀ (name : String) (candidates : List String) (bound : Nat),
      (similar name candidates bound = none ↔
        ∀ candidate ∈ candidates, bound < editDistance name candidate) ∧
      ∀ found, similar name candidates bound = some found →
        editDistance name found ≤ bound ∧ IsFirstClosest name candidates found :=
  ⟨isLeast_editDistance, fun _ _ => editDistance_eq_zero, editDistance_comm, editDistance_triangle,
    fun _ _ _ => ⟨similar_eq_none, fun _ => similar_eq_some⟩⟩

example : editDistance "kitten" "sitting" = 3 := by decide

end EventQuery.Text.Distance
