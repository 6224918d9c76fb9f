import EventQuery.Constant.Basic
import EventQuery.Diagnostic.Span
import EventQuery.Expression.Operator
import EventQuery.Function.Basic

/-!
Expression trees: predicates and values. Every node has the span it was read from.
What binding finds out is kept in optional fields that are empty before: the path of
a name, the type of a parameter, the zone of a calendar operator, the function of a
call, and the path of the scope of an aggregation.
-/
namespace EventQuery

mutual

/-- A condition. -/
inductive BoolExpr where
  | constant (span : Span) (value : Constant)
  | binary (span : Span) (op : Connective) (left right : BoolExpr)
  | not (span : Span) (operand : BoolExpr)
  | comparison (span : Span) (op : Relation) (left right : ValueExpr)
  | bounds (span : Span) (op : BoundsOp) (value lower upper : ValueExpr)
  | nullTest (span : Span) (op : NullTestOp) (operand : ValueExpr)
  | inList (span : Span) (value : ValueExpr) (candidates : List ValueExpr)
  | inVector (span : Span) (value vector : ValueExpr)
  /-- A value that is used as a condition. -/
  | wrapper (span : Span) (value : ValueExpr)
  | boundary (span : Span) (edge : Edge) (relation : String) (resolved : Option Path)
  /-- Whether a step of the enclosing funnel was reached. -/
  | stepReference (span : Span) (step : Int64)

inductive ValueExpr where
  | constant (span : Span) (value : Constant)
  | path (span : Span) (name : String) (resolved : Option Path)
  | parameter (span : Span) (name : String) (type : Option DataType)
  | binary (span : Span) (op : Arithmetic) (left right : ValueExpr)
  | unary (span : Span) (sign : Sign) (operand : ValueExpr)
  | cast (span : Span) (target : DataType) (operand : ValueExpr)
  | conversion (span : Span) (conversion : Conversion) (operand : ValueExpr)
  | quantum (span : Span) (quantum : Quantum) (operand : ValueExpr) (zone : Option String)
    (timeZone : Option TimeZone)
  | call (span : Span) (name : String) (arguments : List ValueExpr) (binding : Option Binding)
  /-- The aggregate of `target` over the rows below `scope` that meet `condition`, for
  the last `quanta` rows of the scope; `count` is the number of results of `TOP`. -/
  | aggregation (span : Span) (op : AggregationOp) (count : Option ValueExpr)
    (target : ValueExpr) (condition : Option BoolExpr) (scope : Option String)
    (quanta : Option ValueExpr) (scopePath : Option Path)
  | now (span : Span)

end

/-- An expression of either family. -/
inductive Expr where
  | bool (node : BoolExpr)
  | value (node : ValueExpr)

/-! ### Spans -/

namespace ValueExpr

instance : Inhabited ValueExpr := ⟨constant .none .null⟩

def span : ValueExpr → Span
  | constant span _ => span
  | path span .. => span
  | parameter span .. => span
  | binary span .. => span
  | unary span .. => span
  | cast span .. => span
  | conversion span .. => span
  | quantum span .. => span
  | call span .. => span
  | aggregation span .. => span
  | now span => span

/-- The node with another span. -/
def withSpan (node : ValueExpr) (span : Span) : ValueExpr :=
  match node with
  | constant _ value => constant span value
  | path _ name resolved => path span name resolved
  | parameter _ name type => parameter span name type
  | binary _ op left right => binary span op left right
  | unary _ sign operand => unary span sign operand
  | cast _ target operand => cast span target operand
  | conversion _ kind operand => conversion span kind operand
  | quantum _ taken operand zone timeZone => quantum span taken operand zone timeZone
  | call _ name arguments binding => call span name arguments binding
  | aggregation _ op count target condition scope quanta scopePath =>
    aggregation span op count target condition scope quanta scopePath
  | now _ => now span

end ValueExpr

namespace BoolExpr

instance : Inhabited BoolExpr := ⟨constant .none (.boolean false)⟩

def span : BoolExpr → Span
  | constant span _ => span
  | binary span .. => span
  | not span _ => span
  | comparison span .. => span
  | bounds span .. => span
  | nullTest span .. => span
  | inList span .. => span
  | inVector span .. => span
  | wrapper span _ => span
  | boundary span .. => span
  | stepReference span _ => span

/-- The node with another span. -/
def withSpan (node : BoolExpr) (span : Span) : BoolExpr :=
  match node with
  | constant _ value => constant span value
  | binary _ op left right => binary span op left right
  | not _ operand => not span operand
  | comparison _ op left right => comparison span op left right
  | bounds _ op value lower upper => bounds span op value lower upper
  | nullTest _ op operand => nullTest span op operand
  | inList _ value candidates => inList span value candidates
  | inVector _ value vector => inVector span value vector
  | wrapper _ value => wrapper span value
  | boundary _ edge relation resolved => boundary span edge relation resolved
  | stepReference _ step => stepReference span step

end BoolExpr

namespace Expr

instance : Inhabited Expr := ⟨value default⟩

def span : Expr → Span
  | bool node => node.span
  | value node => node.span

def withSpan : Expr → Span → Expr
  | bool node, span => bool (node.withSpan span)
  | value node, span => value (node.withSpan span)

end Expr

/-! ### Nodes over the span of their children -/

namespace ValueExpr

def ofConstant (value : Constant) : ValueExpr := constant .none value

def ofPath (name : String) : ValueExpr := path .none name none

def ofParameter (name : String) : ValueExpr := parameter .none name none

def ofBinary (op : Arithmetic) (left right : ValueExpr) : ValueExpr :=
  binary (left.span.cover right.span) op left right

def ofUnary (sign : Sign) (operand : ValueExpr) : ValueExpr := unary operand.span sign operand

def ofCast (operand : ValueExpr) (target : DataType) : ValueExpr :=
  cast operand.span target operand

def ofConversion (kind : Conversion) (operand : ValueExpr) : ValueExpr :=
  conversion operand.span kind operand

def ofQuantum (taken : Quantum) (operand : ValueExpr) (zone : Option String) : ValueExpr :=
  quantum operand.span taken operand zone none

def ofCall (name : String) (arguments : List ValueExpr) : ValueExpr :=
  call (arguments.foldl (fun span argument => span.cover argument.span) .none) name arguments none

def ofAggregation (op : AggregationOp) (target : ValueExpr) : ValueExpr :=
  aggregation target.span op none target none none none none

/-- The constant that a literal stands for. -/
def constant? : ValueExpr → Option Constant
  | constant _ value => some value
  | _ => none

/-- The path that a bound name means. -/
def resolved? : ValueExpr → Option Path
  | path _ _ resolved => resolved
  | _ => none

end ValueExpr

namespace BoolExpr

def ofTruth (value : Bool) : BoolExpr := constant .none (.boolean value)

def ofBinary (op : Connective) (left right : BoolExpr) : BoolExpr :=
  binary (left.span.cover right.span) op left right

def ofNot (operand : BoolExpr) : BoolExpr := not operand.span operand

def ofComparison (op : Relation) (left right : ValueExpr) : BoolExpr :=
  comparison (left.span.cover right.span) op left right

def ofBounds (value lower upper : ValueExpr) : BoolExpr :=
  bounds (value.span.cover upper.span) .between value lower upper

def ofNullTest (operand : ValueExpr) : BoolExpr := nullTest operand.span .isNull operand

def ofList (value : ValueExpr) (candidates : List ValueExpr) : BoolExpr :=
  inList value.span value candidates

def ofVector (value vector : ValueExpr) : BoolExpr :=
  inVector (value.span.cover vector.span) value vector

def ofValue (value : ValueExpr) : BoolExpr := wrapper value.span value

def ofBoundary (edge : Edge) (relation : String) : BoolExpr := boundary .none edge relation none

def ofStep (step : Int64) : BoolExpr := stepReference .none step

/-- The truth value that a literal stands for. -/
def constant? : BoolExpr → Option Bool
  | constant _ value => value.boolean?
  | _ => none

end BoolExpr

/-! ### Kinds -/

def BoolExpr.kind : BoolExpr → String
  | .constant .. => "Constant"
  | .binary .. => "BoolBinary"
  | .not .. => "Not"
  | .comparison .. => "Comparison"
  | .bounds .. => "Bounds"
  | .nullTest .. => "NullTest"
  | .inList .. => "Membership"
  | .inVector .. => "Membership"
  | .wrapper .. => "ValueWrapper"
  | .boundary .. => "Boundary"
  | .stepReference .. => "StepReference"

def ValueExpr.kind : ValueExpr → String
  | .constant .. => "Constant"
  | .path .. => "Path"
  | .parameter .. => "Parameter"
  | .binary .. => "ValueBinary"
  | .unary .. => "Unary"
  | .cast .. => "Cast"
  | .conversion .. => "DateTimeConversion"
  | .quantum .. => "DateTimeQuantum"
  | .call .. => "FunctionCall"
  | .aggregation .. => "Aggregation"
  | .now .. => "Now"

/-- The name of the kind of a node. -/
def Expr.kind : Expr → String
  | .bool node => node.kind
  | .value node => node.kind

end EventQuery
