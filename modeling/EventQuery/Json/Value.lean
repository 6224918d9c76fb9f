/-!
JSON values. Members of an object keep their order and are not merged. A number
is an integer when it is written without fraction and exponent and fits a signed
or unsigned word of 64 bits; any other number is a floating-point number.
-/
namespace EventQuery

inductive Json where
  | null
  | boolean (value : Bool)
  | integer (value : Int)
  | decimal (value : Float)
  | text (value : String)
  | list (items : List Json)
  | object (members : List (String × Json))
  deriving BEq, Repr, Inhabited

namespace Json

/-- Why a text is no JSON document of the expected form. -/
inductive Fault where
  | malformed
  | tooDeep
  | missing (member : String)
  | repeated (member : String)
  | unexpected (member : String)
  deriving DecidableEq, Repr

/-- Containers may be nested this deep. -/
def depthLimit : Nat := 127

end Json

end EventQuery
