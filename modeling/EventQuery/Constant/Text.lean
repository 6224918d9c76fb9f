import EventQuery.Constant.Basic

/-!
The literal text of a constant. Types without a literal form of their own are
written as a `CAST` of one that has, and negative numbers stand in parentheses.
-/
namespace EventQuery.Constant

def castText (text : String) (type : DataType) : String := s!"CAST({text} AS {type.name})"

/-- An integer, in parentheses if it is negative. -/
def signedText (value : Int) : String :=
  if value < 0 then s!"({value})" else toString value

def doubleText (value : Float) : String :=
  match Number.Binary64.kind value with
  | .nan => castText (Text.Quoted.quote "NaN") .double
  | .infinite negative => castText (Text.Quoted.quote (if negative then "-inf" else "inf")) .double
  | .finite _ =>
    let text := Number.Layout.write Number.Layout.literal value
    if Number.Binary64.isNegative value then s!"({text})" else text

/-- Text that reads back as the constant. -/
def text : Constant → String
  | boolean value => if value then "TRUE" else "FALSE"
  | null => "NULL"
  | string value => Text.Quoted.quote value
  | integer value => signedText value.toInt
  | byte value => castText (signedText value.toInt) .byte
  | short value => castText (signedText value.toInt) .short
  | long value =>
    let text := signedText value.toInt
    if (Number.Width.int32? value.toInt).isSome then castText text .long else text
  | datetime ms => castText (signedText ms.toInt) .datetime
  | double value => doubleText value

end EventQuery.Constant
