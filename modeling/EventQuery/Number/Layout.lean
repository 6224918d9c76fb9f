import EventQuery.Number.Shortest

/-!
Written forms of floating-point numbers. All of them show the shortest digits
that read back; a layout says where positional writing ends and how an exponent
looks.
-/
namespace EventQuery.Number

open Binary64 Shortest

structure Layout where
  /-- Exponents of the leading digit that are written positionally, inclusive. -/
  lowest : Option Int
  highest : Option Int
  /-- Integral numbers end with a point and a zero. -/
  pointZero : Bool
  /-- Exponents that are not negative carry a plus sign. -/
  exponentPlus : Bool
  tie : Tie

namespace Layout

/-- Literals and displayed constants: always with a point, an exponent from
`10 ^ 16` on and below `10 ^ -4`. -/
def literal : Layout := ⟨some (-4), some 15, true, false, .up⟩

/-- Numbers cast to text: never an exponent, no point in integral numbers. -/
def plain : Layout := ⟨none, none, false, false, .up⟩

/-- Numbers in JSON text: a signed exponent from `10 ^ 16` on and below `10 ^ -5`. -/
def json : Layout := ⟨some (-5), some 15, true, true, .even⟩

def zeros (n : Nat) : List Char := List.replicate n '0'

/-- Positional writing of digits whose first one has the weight `10 ^ leading`. -/
def positional (layout : Layout) (digits : List Char) (leading : Int) : List Char :=
  if leading < 0 then '0' :: '.' :: (zeros (-leading - 1).toNat ++ digits)
  else
    let whole := leading.toNat + 1
    if digits.length ≤ whole then
      digits ++ zeros (whole - digits.length) ++ (if layout.pointZero then ['.', '0'] else [])
    else digits.take whole ++ '.' :: digits.drop whole

def scientific (layout : Layout) (digits : List Char) (leading : Int) : List Char :=
  let point := match digits with
    | first :: second :: rest => first :: '.' :: second :: rest
    | short => short
  let sign := if leading < 0 then ['-'] else if layout.exponentPlus then ['+'] else []
  point ++ 'e' :: (sign ++ (toString leading.natAbs).toList)

def magnitude (layout : Layout) (parts : Parts) : List Char :=
  let decimal := shortest layout.tie parts.mantissa parts.exponent
  let digits := Nat.toDigits 10 decimal.digits
  let leading : Int := decimal.exponent + digits.length - 1
  let fitsBelow := layout.lowest.all (· ≤ leading)
  let fitsAbove := layout.highest.all (leading ≤ ·)
  if decimal.digits = 0 || (fitsBelow && fitsAbove) then positional layout digits leading
  else scientific layout digits leading

def write (layout : Layout) (x : Float) : String :=
  match kind x with
  | .nan => "NaN"
  | .infinite negative => if negative then "-inf" else "inf"
  | .finite parts =>
    let text := String.ofList (magnitude layout parts)
    if parts.negative then "-" ++ text else text

end Layout

end EventQuery.Number
