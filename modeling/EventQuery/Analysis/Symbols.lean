import EventQuery.Constant.Basic
import EventQuery.Diagnostic.Span
import EventQuery.Function.Basic

/-!
Scoped names, and the references between statements. A name means its definition in
the innermost scope that has one. There is always one scope, the outermost.
-/
namespace EventQuery

/-- What a name stands for. -/
inductive Definition where
  | parameter (type : DataType) (default : Option Constant)
  | function (function : Function)
  | funnel (steps : List Int64)
  | segment (names : List String)
  | view
  | query
  deriving DecidableEq, Repr

namespace Definition

def describe : Definition → String
  | parameter .. => "parameter"
  | function _ => "function"
  | funnel _ => "funnel"
  | segment _ => "segment"
  | view => "view"
  | query => "query"

def isParameter : Definition → Bool
  | parameter .. => true
  | _ => false

def isFunction : Definition → Bool
  | function _ => true
  | _ => false

end Definition

/-- A scope with its names in the order of their definition. -/
structure Scope where
  /-- The relation that aggregations are scoped to when they name none. -/
  root : Path
  definitions : List (String × Definition)
  deriving DecidableEq, Repr

namespace Scope

def empty (root : Path) : Scope := ⟨root, []⟩

def lookup? (scope : Scope) (name : String) : Option Definition := scope.definitions.lookup name

/-- The scope with one more definition; a name is defined once. -/
def define? (scope : Scope) (name : String) (definition : Definition) : Option Scope :=
  if (scope.lookup? name).isSome then none
  else some { scope with definitions := scope.definitions ++ [(name, definition)] }

end Scope

/-- A statement refers to another one. -/
structure StatementReference where
  source : String
  target : String
  span : Span
  deriving DecidableEq, Repr

/-- Names that refer to each other in turn, the last to the first again, and the span
of the reference that closes the circle. -/
structure ReferenceCycle where
  names : List String
  span : Span
  deriving DecidableEq, Repr

structure Symbols where
  current : Scope
  /-- The scopes around the current one, innermost first. -/
  outer : List Scope
  /-- References in the order of their recording, each pair of statements once. -/
  references : List StatementReference
  deriving Repr

namespace Symbols

def empty (root : Path) : Symbols := ⟨.empty root, [], []⟩

/-! ### Scopes -/

/-- All scopes, innermost first. -/
def scopes (symbols : Symbols) : List Scope := symbols.current :: symbols.outer

def depth (symbols : Symbols) : Nat := symbols.scopes.length

def root (symbols : Symbols) : Path := symbols.current.root

def lookup? (symbols : Symbols) (name : String) : Option Definition :=
  symbols.scopes.findSome? fun scope => scope.lookup? name

/-- The definitions of all scopes, innermost scope first. -/
def definitions (symbols : Symbols) : List (String × Definition) :=
  symbols.scopes.flatMap Scope.definitions

def names (symbols : Symbols) : List String := symbols.definitions.map Prod.fst

def namesWhere (symbols : Symbols) (holds : Definition → Bool) : List String :=
  (symbols.definitions.filter fun (_, definition) => holds definition).map Prod.fst

/-- Defines a name in the current scope, unless it is defined there. -/
def define? (symbols : Symbols) (name : String) (definition : Definition) : Option Symbols :=
  (symbols.current.define? name definition).map fun scope => { symbols with current := scope }

/-- Defines a name in the scope around the current one, so that it outlives this one.
If there is no such scope, it is the current one. -/
def defineOutside? (symbols : Symbols) (name : String) (definition : Definition) :
    Option Symbols :=
  match symbols.outer with
  | [] => symbols.define? name definition
  | scope :: rest =>
    (scope.define? name definition).map fun scope => { symbols with outer := scope :: rest }

/-- Opens a scope; without a root of its own it has the root of the current one. -/
def push (symbols : Symbols) (root : Option Path) : Symbols :=
  { symbols with
    current := .empty (root.getD symbols.root)
    outer := symbols.current :: symbols.outer }

/-- Closes the current scope; the outermost one stays. -/
def pop? (symbols : Symbols) : Option Symbols :=
  match symbols.outer with
  | [] => none
  | scope :: rest => some { symbols with current := scope, outer := rest }

/-- Runs a body in a scope of its own, which is closed behind it. -/
def withScope (symbols : Symbols) (root : Option Path) (body : Symbols → Option (α × Symbols)) :
    Option (α × Symbols) := do
  let (result, inside) ← body (symbols.push root)
  return (result, ← inside.pop?)

/-! ### References -/

/-- Records a reference; of several between the same statements the first counts. -/
def refer (symbols : Symbols) (source target : String) (span : Span) : Symbols :=
  if symbols.references.any fun edge => edge.source == source && edge.target == target then symbols
  else { symbols with references := symbols.references ++ [⟨source, target, span⟩] }

/-- Follows the references from a name, along a trail of names that ends before it.
The result is the names that are known to lead to no cycle. -/
def follow (references : List StatementReference) :
    Nat → List String → List String → String → Except ReferenceCycle (List String)
  | 0, _, settled, _ => .ok settled
  | fuel + 1, trail, settled, name =>
    if settled.contains name then .ok settled
    else do
      let trail := trail ++ [name]
      let ahead := references.filter fun edge => edge.source == name
      let settled ← ahead.foldlM (fun settled edge =>
        if trail.contains edge.target then
          .error ⟨trail.dropWhile (· != edge.target) ++ [edge.target], edge.span⟩
        else follow references fuel trail settled edge.target) settled
      return settled ++ [name]

/-- The first cycle that is found when references are followed in recording order. A
trail has no name twice and every name on it but the last has a reference, so one
more step than there are references is enough. -/
def cycle? (symbols : Symbols) : Option ReferenceCycle :=
  let sources := symbols.references.map StatementReference.source
  match sources.foldlM (follow symbols.references (sources.length + 1) []) [] with
  | .ok _ => none
  | .error cycle => some cycle

end Symbols

end EventQuery
