import EventQuery.Json.Value
import EventQuery.Schema.Path
import EventQuery.Text.Blank

/-!
Schemas: the declared relations and fields of a data model, in declaration order,
and the resolution of names against them. A name is absolute, starts with the name
of some relation, or is a member of the root relation.
-/
namespace EventQuery

structure FieldDeclaration where
  name : String
  type : DataType
  isVector : Bool
  isOrdinal : Bool
  deriving DecidableEq, Repr

inductive RelationDeclaration where
  | mk (name : String) (fields : List FieldDeclaration) (relations : List RelationDeclaration)
  deriving Repr, Inhabited

namespace RelationDeclaration

def name : RelationDeclaration → String
  | mk name _ _ => name

def fields : RelationDeclaration → List FieldDeclaration
  | mk _ fields _ => fields

def relations : RelationDeclaration → List RelationDeclaration
  | mk _ _ relations => relations

end RelationDeclaration

inductive SchemaError where
  | unknownPath (name : String)
  | ambiguousPath (name : String) (candidates : List String)
  | invalidName (name : String)
  | repeatedMember (relation name : String)
  | unfitOrdinal (path : String)
  | secondOrdinal (relation first second : String)
  | notJson (fault : Json.Fault)
  deriving DecidableEq, Repr

namespace SchemaError

def message : SchemaError → String
  | unknownPath name => s!"unknown path `{name}`"
  | ambiguousPath name candidates =>
    s!"path `{name}` is ambiguous, candidates: " ++ ", ".intercalate candidates
  | invalidName name => s!"invalid schema: invalid member name `{name}`"
  | repeatedMember relation name =>
    s!"invalid schema: `{relation}` declares `{name}` more than once"
  | unfitOrdinal path =>
    s!"invalid schema: ordinal field `{path}` must be a scalar LONG or DATETIME"
  | secondOrdinal relation first second =>
    s!"invalid schema: `{relation}` has two ordinal fields: `{first}` and `{second}`"
  | notJson _ => "invalid JSON"

end SchemaError

structure Schema where
  root : Path
  /-- Every relation, followed by its fields and then by its child relations. -/
  paths : List Path
  deriving Repr, Inhabited

namespace Schema

/-! ### Construction -/

def checkName (name : String) : Except SchemaError Unit :=
  if name.isEmpty || name.toList.contains '.' then .error (.invalidName name) else .ok ()

/-- The first name that occurs again later on comes second in `seen`. -/
def checkDistinct (relation : String) (seen : List String) :
    List String → Except SchemaError Unit
  | [] => .ok ()
  | name :: rest =>
    if seen.contains name then .error (.repeatedMember relation name)
    else checkDistinct relation (name :: seen) rest

/-- The path of a declared field of the relation `owner`. -/
def fieldPath (owner : List String) (field : FieldDeclaration) : Path :=
  .field owner field.name ⟨field.type, field.isVector, field.isOrdinal⟩

/-- The paths of the fields of a relation; `ordinal` is the ordinal field met so far. -/
def fieldPaths (owner : List String) (ordinal : Option Path) :
    List FieldDeclaration → Except SchemaError (List Path)
  | [] => .ok []
  | field :: rest => do
    checkName field.name
    let path := fieldPath owner field
    if field.isOrdinal then
      if field.isVector || !(field.type == .long || field.type == .datetime) then
        throw (.unfitOrdinal path.dotted)
      if let some first := ordinal then
        throw (.secondOrdinal (".".intercalate owner) first.dotted path.dotted)
    let ordinal := if field.isOrdinal then some path else ordinal
    return path :: (← fieldPaths owner ordinal rest)

mutual

/-- The paths that a declaration inside the relation `outer` adds. -/
def declaredPaths (outer : List String) : RelationDeclaration → Except SchemaError (List Path)
  | .mk name fields relations => do
    checkName name
    let segments := outer ++ [name]
    let members := fields.map FieldDeclaration.name ++ relations.map RelationDeclaration.name
    checkDistinct (".".intercalate segments) [] members
    let own ← fieldPaths segments none fields
    let children ← declaredPathsOfAll segments relations
    return .relation segments :: own ++ children

def declaredPathsOfAll (outer : List String) :
    List RelationDeclaration → Except SchemaError (List Path)
  | [] => .ok []
  | declaration :: rest => do
    let paths ← declaredPaths outer declaration
    return paths ++ (← declaredPathsOfAll outer rest)

end

def ofDeclaration (declaration : RelationDeclaration) : Except SchemaError Schema := do
  let paths ← declaredPaths [] declaration
  return ⟨.relation [declaration.name], paths⟩

/-! ### Resolution -/

/-- The declared path with this dotted name. -/
def lookup? (schema : Schema) (dotted : String) : Option Path :=
  schema.paths.find? fun path => path.dotted == dotted

/-- Every dotted name, in declaration order. -/
def knownNames (schema : Schema) : List String := schema.paths.map Path.dotted

/-- The part of a name before its first point, and the part behind it. -/
def splitHead (name : String) : String × Option String :=
  let chars := name.toList
  let head := chars.takeWhile (· != '.')
  match chars.dropWhile (· != '.') with
  | [] => (String.ofList head, none)
  | _ :: rest => (String.ofList head, some (String.ofList rest))

/-- The paths that a name may mean when it starts with the name of a relation. -/
def candidates (schema : Schema) (name : String) : List Path :=
  let (head, rest) := splitHead name
  let relations := schema.paths.filter fun path => path.isRelation && path.name == head
  match rest with
  | none => relations
  | some rest => relations.filterMap fun relation => schema.lookup? (relation.dotted ++ "." ++ rest)

/-- The path a name means. -/
def resolve (schema : Schema) (name : String) : Except SchemaError Path :=
  let name := Text.Blank.trimmed name
  match schema.lookup? name with
  | some path => .ok path
  | none =>
    match schema.candidates name with
    | [path] => .ok path
    | [] =>
      match schema.lookup? (schema.root.dotted ++ "." ++ name) with
      | some path => .ok path
      | none => .error (.unknownPath name)
    | several => .error (.ambiguousPath name (several.map Path.dotted))

/-- The field that orders the rows of the relation of `path`, which counts by its dotted name. -/
def ordinalOf? (schema : Schema) (path : Path) : Option Path :=
  schema.paths.find? fun candidate =>
    candidate.isOrdinal && candidate.home.dotted == path.home.dotted

end Schema

end EventQuery
