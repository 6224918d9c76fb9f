import EventQuery.Expression.Outline
import EventQuery.Expression.Text
import EventQuery.Pattern.Text
import EventQuery.Statement.Basic

/-!
The text of statements: a heading, and a clause on each line below it.
-/
namespace EventQuery

/-- A line with a keyword and what belongs to it. -/
def clauseLine (pad keyword text : String) : String := s!"{pad}{keyword} {text}\n"

/-- A clause that is left out when there is nothing in it. -/
def optionalLine (pad keyword : String) (text : Option String) : String :=
  match text with
  | some text => clauseLine pad keyword text
  | none => ""

/-- A clause with a list, left out when the list is empty. -/
def listLine (pad keyword : String) (texts : List String) : String :=
  if texts.isEmpty then "" else clauseLine pad keyword (commaSeparated texts)

def Parameter.text (parameter : Parameter) : String :=
  let default := match parameter.default with
    | some value => " DEFAULT " ++ value.text
    | none => ""
  s!"${parameter.name} {parameter.type.name}{default}"

def parametersLine (pad : String) (parameters : List Parameter) : String :=
  listLine pad "PARAMETERS" (parameters.map Parameter.text)

def tagsLine (pad : String) (tags : List String) : String :=
  listLine pad "TAGS" (tags.map Text.Quoted.quote)

def Selection.text (selection : Selection) : String :=
  match selection.name with
  | some name => selection.expr.text ++ " AS " ++ name
  | none => selection.expr.text

def Query.text (query : Query) (level : Nat) : String :=
  let pad := indentation (level + 1)
  let name := match query.name with
    | some name => " " ++ name
    | none => ""
  indentation level ++ "QUERY" ++ name ++ "\n" ++ parametersLine pad query.parameters
    ++ clauseLine pad "SELECT" (commaSeparated (query.selections.map Selection.text))
    ++ optionalLine pad "WHERE" (query.condition.map BoolExpr.text)
    ++ listLine pad "GROUP BY" (query.groupBy.map ValueExpr.text)
    ++ optionalLine pad "LIMIT" (query.limit.map ValueExpr.text)
    ++ tagsLine pad query.tags

def View.text (view : View) (level : Nat) : String :=
  let pad := indentation (level + 1)
  indentation level ++ "VIEW " ++ view.name ++ "\n" ++ parametersLine pad view.parameters
    ++ clauseLine pad "WHERE" view.condition.text

/-- A part of a trigger with its keyword. -/
def triggerPart (keyword : String) (value : Option ValueExpr) : String :=
  match value with
  | some value => s!" {keyword} {value.text}"
  | none => ""

def Trigger.text (trigger : Trigger) : String :=
  " TRIGGER" ++ triggerPart "TIMING" trigger.timing ++ triggerPart "WITHIN" trigger.within
    ++ triggerPart "AFTER" trigger.after

def Step.text (step : Step) (pad : String) : String :=
  let trigger := match step.trigger with
    | some trigger => trigger.text
    | none => ""
  s!"{pad}STEP {step.id} WHEN {step.condition.text}{trigger}\n"

def Funnel.text (funnel : Funnel) (level : Nat) : String :=
  let pad := indentation (level + 1)
  indentation level ++ "FUNNEL " ++ funnel.name ++ " " ++ funnel.kind.keyword ++ "\n"
    ++ parametersLine pad funnel.parameters ++ listLine pad "SOURCES" funnel.sources
    ++ String.join (funnel.steps.map fun step => step.text pad)
    ++ clauseLine pad "MATCH" funnel.pattern.text
    ++ optionalLine pad "WITHIN" (funnel.within.map ValueExpr.text)
    ++ optionalLine pad "LIMIT" (funnel.limit.map ValueExpr.text)
    ++ tagsLine pad funnel.tags

def SegmentDefinition.text (definition : SegmentDefinition) (pad : String) : String :=
  s!"{pad}DEFINE {Text.Quoted.quote definition.name} WHERE {definition.condition.text}\n"

def Segment.text (segment : Segment) (level : Nat) : String :=
  let pad := indentation (level + 1)
  indentation level ++ "SEGMENT " ++ segment.name ++ "\n" ++ parametersLine pad segment.parameters
    ++ listLine pad "SOURCES" segment.sources
    ++ String.join (segment.definitions.map fun definition => definition.text pad)

/-- The text of a statement, indented by `level`. -/
def Statement.text (level : Nat) : Statement → String
  | .query it => it.text level
  | .view it => it.text level
  | .funnel it => it.text level
  | .segment it => it.text level

/-- The statements with an empty line between them. -/
def Program.text (program : Program) (level : Nat) : String :=
  "\n".intercalate (program.statements.map (Statement.text level))

end EventQuery
