import EventQuery.Number.Power

/-!
Exact access to binary floating-point numbers of 64 bits: the number a bit
pattern stands for, truncation to an integer, rounding of a fraction, and the
remainder of a division. Everything is integer arithmetic on mantissa and exponent.
-/
namespace EventQuery.Number.Binary64

/-- A finite number `± mantissa · 2 ^ exponent`; the sign of zero counts. -/
structure Parts where
  negative : Bool
  mantissa : Nat
  exponent : Int
  deriving DecidableEq, Repr

inductive Kind where
  | nan
  | infinite (negative : Bool)
  | finite (parts : Parts)
  deriving DecidableEq, Repr

def mantissaBits : Nat := 52

/-- The exponent of the numbers closest to zero. -/
def leastExponent : Int := -1074

def kind (x : Float) : Kind :=
  let bits : Nat := x.toBits.toNat
  let negative := bits / twoTo 63 == 1
  let biased : Nat := bits / twoTo mantissaBits % twoTo 11
  let fraction : Nat := bits % twoTo mantissaBits
  if biased = twoTo 11 - 1 then
    if fraction = 0 then .infinite negative else .nan
  else if biased = 0 then .finite ⟨negative, fraction, leastExponent⟩
  else .finite ⟨negative, twoTo mantissaBits + fraction, leastExponent + biased - 1⟩

def isNaN (x : Float) : Bool := kind x == .nan

/-- The sign bit of a number that is not NaN. -/
def isNegative (x : Float) : Bool :=
  match kind x with
  | .nan => false
  | .infinite negative => negative
  | .finite parts => parts.negative

def isInfinite (x : Float) : Bool :=
  match kind x with
  | .infinite _ => true
  | _ => false

def infinity : Float := Float.ofBits 0x7FF0000000000000

def notANumber : Float := Float.ofBits 0x7FF8000000000000

/-- The integer part, cut toward zero; NaN and the infinities have none. -/
def truncate? (x : Float) : Option Int :=
  match kind x with
  | .finite parts =>
    let magnitude : Nat :=
      if 0 ≤ parts.exponent then parts.mantissa * twoTo parts.exponent.toNat
      else parts.mantissa / twoTo (-parts.exponent).toNat
    some (if parts.negative then -magnitude else magnitude)
  | _ => none

/-- The number with these parts, which have to denote a representable one. -/
def ofParts (parts : Parts) : Float :=
  let sign := if parts.negative then twoTo 63 else 0
  let scaled (target : Int) : Nat :=
    if target ≤ parts.exponent then parts.mantissa * twoTo (parts.exponent - target).toNat
    else parts.mantissa / twoTo (target - parts.exponent).toNat
  let top : Int := parts.mantissa.log2 + parts.exponent
  let magnitude : Nat :=
    if parts.mantissa = 0 then 0
    else if top < leastExponent + mantissaBits then scaled leastExponent
    else
      let exponent := top - mantissaBits
      (exponent - leastExponent).toNat * twoTo mantissaBits + scaled exponent
  Float.ofBits (UInt64.ofNat (sign + magnitude))

/-- The natural number nearest to a fraction, the even one of two. -/
def nearest (numerator denominator : Nat) : Nat :=
  let below := numerator / denominator
  let rest := numerator % denominator
  if denominator < 2 * rest ∨ (denominator = 2 * rest ∧ below % 2 = 1) then below + 1 else below

/-- The number nearest to a fraction; from halfway behind the largest one on it is infinite.
In units of the least number the fraction is `scaled / denominator`, and the numbers around
it are `2 ^ shift` units apart. A mantissa that is rounded up to a power of two carries into
the exponent. -/
def ofFraction (numerator denominator : Nat) : Float :=
  let scaled := numerator * twoTo (-leastExponent).toNat
  let shift := (scaled / denominator).log2 - mantissaBits
  let magnitude := shift * twoTo mantissaBits + nearest scaled (denominator * twoTo shift)
  Float.ofBits (UInt64.ofNat (min magnitude (twoTo 63 - twoTo mantissaBits)))

/-- What a division toward zero leaves over. It is exact and has the sign of `x`. -/
def remainder (x y : Float) : Float :=
  match kind x, kind y with
  | .finite a, .infinite _ => ofParts a
  | .finite a, .finite b =>
    if b.mantissa = 0 then notANumber
    else
      let exponent := min a.exponent b.exponent
      let left := a.mantissa * twoTo (a.exponent - exponent).toNat
      let right := b.mantissa * twoTo (b.exponent - exponent).toNat
      ofParts ⟨a.negative, left % right, exponent⟩
  | _, _ => notANumber

end EventQuery.Number.Binary64
