import EventQuery.Number.Binary64

/-!
The fewest decimal digits that read back as a given number. A number stands for
all reals closer to it than to its neighbours, its ends included when the
mantissa is even. For one digit, two digits and so on, the two points of the
decimal grid around the number are tried; the first grid with a point inside wins,
and of two such points the nearer.
-/
namespace EventQuery.Number.Shortest

open Binary64

/-- The decimal `digits · 10 ^ exponent`. -/
structure Decimal where
  digits : Nat
  exponent : Int
  deriving DecidableEq, Repr

/-- Which of two equally near decimals is taken. -/
inductive Tie where
  | up | even
  deriving DecidableEq, Repr

/-- The number of decimal digits of a natural number, one for zero. -/
def digitCount (n : Nat) : Nat := (Nat.toDigits 10 n).length

/-- A positive rational as a fraction. -/
structure Ratio where
  numerator : Nat
  denominator : Nat

/-- `m · 2 ^ q · 10 ^ -k` as a fraction. -/
def scaled (m : Nat) (q k : Int) : Ratio :=
  ⟨m * twoTo q.toNat * tenTo (-k).toNat, twoTo (-q).toNat * tenTo k.toNat⟩

/-- The decimal exponent of the leading digit of a positive fraction. -/
def leadingExponent (r : Ratio) : Int :=
  if r.denominator ≤ r.numerator then
    digitCount (r.numerator / r.denominator) - 1
  else
    let count := digitCount (r.denominator / r.numerator)
    if r.numerator * tenTo (count - 1) = r.denominator then -((count : Int) - 1) else -count

/-- Whether `d · 10 ^ k` lies in the interval of `m · 2 ^ q`. The gap below a
power of two is half as wide as the gap above, unless the exponent is the least. -/
def inside (m : Nat) (q k : Int) (d : Nat) : Bool :=
  let narrow := m = twoTo mantissaBits ∧ leastExponent < q
  let low := scaled (4 * m - if narrow then 1 else 2) (q - 2) k
  let high := scaled (4 * m + 2) (q - 2) k
  if m % 2 = 0 then
    low.numerator ≤ d * low.denominator && d * high.denominator ≤ high.numerator
  else
    low.numerator < d * low.denominator && d * high.denominator < high.numerator

/-- The point of the grid `10 ^ k` next to `m · 2 ^ q` and inside its interval. -/
def onGrid (tie : Tie) (m : Nat) (q k : Int) : Option Decimal :=
  let value := scaled m q k
  let below := value.numerator / value.denominator
  let rest := value.numerator % value.denominator
  let up : Bool :=
    value.denominator < 2 * rest
      || (value.denominator == 2 * rest && (tie == .up || below % 2 == 1))
  match inside m q k below, inside m q k (below + 1) with
  | true, true => some ⟨if up && rest != 0 then below + 1 else below, k⟩
  | true, false => some ⟨below, k⟩
  | false, true => some ⟨below + 1, k⟩
  | false, false => none

/-- Tries `count` more digit counts, from grid `k` to finer ones. -/
def search (tie : Tie) (m : Nat) (q : Int) : Nat → Int → Decimal
  | 0, k => ⟨0, k⟩
  | count + 1, k =>
    match onGrid tie m q k with
    | some decimal => decimal
    | none => search tie m q count (k - 1)

/-- Drops zeros at the end, at most `count` of them. -/
def strip : Nat → Decimal → Decimal
  | 0, d => d
  | count + 1, d =>
    if d.digits % 10 = 0 ∧ d.digits ≠ 0 then strip count ⟨d.digits / 10, d.exponent + 1⟩ else d

/-- The shortest decimal of `m · 2 ^ q`; seventeen digits always suffice. -/
def shortest (tie : Tie) (m : Nat) (q : Int) : Decimal :=
  if m = 0 then ⟨0, 0⟩
  else strip 18 (search tie m q 18 (leadingExponent (scaled m q 0)))

end EventQuery.Number.Shortest
