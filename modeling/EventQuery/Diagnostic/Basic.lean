import EventQuery.Diagnostic.Span

/-!
Diagnostics: why a text cannot be read or a tree cannot be compiled. Every kind has
a message of its own, a frame for a more precise one, and perhaps a hint.
-/
namespace EventQuery

/-- Kinds in the order of the stages that report them. -/
inductive DiagnosticKind where
  | syntaxDefect | limitExceeded | duplicateDefinition | unresolvedReference | arityError
  | typeError | constantRequired | arithmeticFault | scopeAxisError | patternStructureError
  /-- Nothing is reported: the program stops where it is. -/
  | crash
  deriving DecidableEq, Repr

namespace DiagnosticKind

/-- The kinds that are reported. -/
def all : List DiagnosticKind :=
  [syntaxDefect, limitExceeded, duplicateDefinition, unresolvedReference, arityError, typeError,
    constantRequired, arithmeticFault, scopeAxisError, patternStructureError]

def name : DiagnosticKind → String
  | syntaxDefect => "SyntaxDefect"
  | limitExceeded => "LimitExceeded"
  | duplicateDefinition => "DuplicateDefinition"
  | unresolvedReference => "UnresolvedReference"
  | arityError => "ArityError"
  | typeError => "TypeError"
  | constantRequired => "ConstantRequiredError"
  | arithmeticFault => "ArithmeticFault"
  | scopeAxisError => "ScopeAxisError"
  | patternStructureError => "PatternStructureError"
  | crash => "Crash"

/-- The message of a diagnostic without detail. -/
def summary : DiagnosticKind → String
  | syntaxDefect => "syntax error"
  | limitExceeded => "nesting limit exceeded"
  | duplicateDefinition => "duplicate definition"
  | unresolvedReference => "unresolved reference"
  | arityError => "wrong number of arguments"
  | typeError => "type error"
  | constantRequired => "constant expression required"
  | arithmeticFault => "arithmetic fault"
  | scopeAxisError => "expression mixes unrelated relations"
  | patternStructureError => "invalid match pattern"
  | crash => "local time out of range"

/-- What stands before and behind a detail. -/
def frame (kind : DiagnosticKind) : String × String :=
  match kind with
  | duplicateDefinition => ("`", "` is already defined")
  | unresolvedReference => ("`", "` is not defined")
  | arityError => ("", "")
  | _ => (kind.summary ++ ": ", "")

def messageWith (kind : DiagnosticKind) (detail : String) : String :=
  kind.frame.1 ++ detail ++ kind.frame.2

/-- The hint that every diagnostic of the kind carries. -/
def hint? : DiagnosticKind → Option String
  | scopeAxisError => some "both sides must be evaluated on one chain of nested relations"
  | constantRequired => some "use literals, parameters with defaults are not folded"
  | _ => none

/-- The position of a kind in the order of kinds. -/
def rank (kind : DiagnosticKind) : Nat := all.idxOf kind

end DiagnosticKind

structure Diagnostic where
  kind : DiagnosticKind
  span : Span
  message : String
  hints : List String
  /-- Other places that matter, with a remark on each. -/
  related : List (String × Span)
  deriving DecidableEq, Repr

namespace Diagnostic

/-- A diagnostic with the message of its kind. -/
def ofKind (kind : DiagnosticKind) (span : Span) : Diagnostic :=
  ⟨kind, span, kind.summary, kind.hint?.toList, []⟩

def withDetail (diagnostic : Diagnostic) (detail : String) : Diagnostic :=
  { diagnostic with message := diagnostic.kind.messageWith detail }

/-- A diagnostic with a detail in the frame of its kind. -/
def of (kind : DiagnosticKind) (span : Span) (detail : String) : Diagnostic :=
  (ofKind kind span).withDetail detail

def withHint (diagnostic : Diagnostic) (hint : String) : Diagnostic :=
  { diagnostic with hints := diagnostic.hints ++ [hint] }

def withHints (diagnostic : Diagnostic) (hints : List String) : Diagnostic :=
  { diagnostic with hints := diagnostic.hints ++ hints }

def relatedTo (diagnostic : Diagnostic) (remark : String) (span : Span) : Diagnostic :=
  { diagnostic with related := diagnostic.related ++ [(remark, span)] }

/-- The diagnostic at `span` if it was raised without a place. -/
def orSpan (diagnostic : Diagnostic) (span : Span) : Diagnostic :=
  if diagnostic.span.isNone then { diagnostic with span := span } else diagnostic

/-- The diagnostic on one line. -/
def display (diagnostic : Diagnostic) : String :=
  let place (span : Span) := s!"at {span.start}..{span.stop}"
  let related := diagnostic.related.map fun (remark, span) =>
    s!" (related: {remark} {place span})"
  let hints := diagnostic.hints.map fun hint => s!" (hint: {hint})"
  s!"error {place diagnostic.span}: {diagnostic.message}"
    ++ String.join related ++ String.join hints

end Diagnostic

end EventQuery
