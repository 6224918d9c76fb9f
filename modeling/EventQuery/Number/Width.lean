/-!
Integers of a fixed width. An integer outside the range of a width has no word
of that width.
-/
namespace EventQuery.Number.Width

def int8? (n : Int) : Option Int8 :=
  if -0x80 ≤ n ∧ n < 0x80 then some (Int8.ofInt n) else none

def int16? (n : Int) : Option Int16 :=
  if -0x8000 ≤ n ∧ n < 0x8000 then some (Int16.ofInt n) else none

def int32? (n : Int) : Option Int32 :=
  if -0x80000000 ≤ n ∧ n < 0x80000000 then some (Int32.ofInt n) else none

def int64? (n : Int) : Option Int64 :=
  if -0x8000000000000000 ≤ n ∧ n < 0x8000000000000000 then some (Int64.ofInt n) else none

theorem toInt_of_int64? {n : Int} {w : Int64} (h : int64? n = some w) : w.toInt = n := by
  unfold int64? at h
  split at h
  · rename_i range
    cases h
    exact Int64.toInt_ofInt_of_le (by simpa using range.1) (by simpa using range.2)
  · cases h

theorem int64?_toInt (w : Int64) : int64? w.toInt = some w := by
  have low := w.le_toInt
  have high := w.toInt_lt
  simp only [int64?]
  rw [if_pos ⟨by simpa using low, by simpa using high⟩, Int64.ofInt_toInt]

/-- A word stands for one integer, and every integer in range has a word. -/
theorem int64?_eq_some_iff {n : Int} {w : Int64} : int64? n = some w ↔ w.toInt = n :=
  ⟨toInt_of_int64?, fun h => h ▸ int64?_toInt w⟩

end EventQuery.Number.Width
