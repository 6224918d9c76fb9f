import EventQuery.Pattern.Outline
import EventQuery.Pattern.Text
import EventQuery.Statement.Basic

/-!
The outline of statements: the outlines of their expressions under labels.
-/
namespace EventQuery

/-- An outline one level below a label. -/
def labelled (level : Nat) (label : String) (expr : Expr) : String :=
  s!"{indentation level}{label}:\n" ++ expr.outline (level + 1)

def labelledBool (level : Nat) (label : String) (node : BoolExpr) : String :=
  labelled level label (.bool node)

/-- A labelled outline of a value that may be left out. -/
def labelledOption (level : Nat) (label : String) (node : Option ValueExpr) : String :=
  match node with
  | some node => labelled level label (.value node)
  | none => ""

def Parameter.outline (parameter : Parameter) (level : Nat) : String :=
  let default := match parameter.default with
    | some value => " = " ++ value.display
    | none => ""
  s!"{indentation level}Parameter ${parameter.name} {parameter.type.name}{default}\n"

def parametersOutline (level : Nat) (parameters : List Parameter) : String :=
  String.join (parameters.map fun parameter => parameter.outline level)

def Selection.outline (selection : Selection) (level : Nat) : String :=
  let label := match selection.name with
    | some name => "select " ++ name
    | none => "select"
  labelled level label selection.expr

def Query.outline (query : Query) (level : Nat) : String :=
  let condition := match query.condition with
    | some condition => labelledBool level "where" condition
    | none => ""
  parametersOutline level query.parameters
    ++ String.join (query.selections.map fun selection => selection.outline level)
    ++ condition
    ++ String.join (query.groupBy.map fun key => labelled level "group by" (.value key))
    ++ labelledOption level "limit" query.limit

def Step.outline (step : Step) (level : Nat) : String :=
  let trigger := match step.trigger with
    | some trigger =>
      labelledOption (level + 1) "timing" trigger.timing
        ++ labelledOption (level + 1) "within" trigger.within
        ++ labelledOption (level + 1) "after" trigger.after
    | none => ""
  s!"{indentation level}Step {step.id}\n" ++ labelledBool (level + 1) "when" step.condition
    ++ trigger

def Funnel.outline (funnel : Funnel) (level : Nat) : String :=
  parametersOutline level funnel.parameters
    ++ String.join (funnel.steps.map fun step => step.outline level)
    ++ s!"{indentation level}match: {funnel.pattern.text}\n"
    ++ funnel.pattern.outline (level + 1)
    ++ labelledOption level "within" funnel.within
    ++ labelledOption level "limit" funnel.limit

def Segment.outline (segment : Segment) (level : Nat) : String :=
  parametersOutline level segment.parameters
    ++ String.join (segment.definitions.map fun definition =>
      labelledBool level ("define " ++ definition.name) definition.condition)

def Statement.outline (level : Nat) : Statement → String
  | .query it =>
    let name := it.name.getD "<anonymous>"
    s!"{indentation level}Query {name}\n" ++ it.outline (level + 1)
  | .view it =>
    s!"{indentation level}View {it.name}\n" ++ parametersOutline (level + 1) it.parameters
      ++ labelledBool (level + 1) "where" it.condition
  | .funnel it =>
    s!"{indentation level}Funnel {it.name} {it.kind.keyword}\n"
      ++ it.outline (level + 1)
  | .segment it =>
    s!"{indentation level}Segment {it.name}\n" ++ it.outline (level + 1)

def Program.outline (program : Program) (level : Nat) : String :=
  String.join (program.statements.map (Statement.outline level))

end EventQuery
