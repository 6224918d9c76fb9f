/-!
Byte ranges of the text a node was read from. Nodes that were not read have the
empty range at zero.
-/
namespace EventQuery

structure Span where
  start : Nat
  stop : Nat
  deriving DecidableEq, Repr

namespace Span

def none : Span := ⟨0, 0⟩

instance : Inhabited Span := ⟨none⟩

def isNone (span : Span) : Bool := span.start == 0 && span.stop == 0

/-- The smallest range that holds both; the empty range at zero counts for nothing. -/
def cover (a b : Span) : Span :=
  if a.isNone then b
  else if b.isNone then a
  else ⟨min a.start b.start, max a.stop b.stop⟩

end Span

end EventQuery
