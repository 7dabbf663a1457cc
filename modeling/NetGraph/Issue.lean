/-!
# Issues

An `Issue` is a message of the validator, routed to a node or an edge and to one of its fields. An
error blocks generation for the element it concerns; a warning does not.
-/

namespace NetGraph

inductive Severity where
  | error
  | warning
  deriving DecidableEq, Repr, Inhabited

namespace Severity

def name : Severity → String
  | error => "error"
  | warning => "warning"

end Severity

/-- A finding with the id of the element and the key of the field that it is about. -/
structure Issue where
  message : String
  elementId : Option String := none
  fieldKey : Option String := none
  severity : Severity
  deriving DecidableEq, Repr, Inhabited

namespace Issue

def isError (i : Issue) : Bool := i.severity = .error

def isWarning (i : Issue) : Bool := i.severity = .warning

/-- Whether the issue is attached to the element with this id. -/
def concerns (i : Issue) (id : String) : Bool := i.elementId = some id

/-- `error: message (element: id, field: key)` -/
def text (i : Issue) : String :=
  let element := i.elementId.getD "N/A"
  let field := match i.fieldKey with
    | some key => s!", field: {key}"
    | none => ""
  s!"{i.severity.name}: {i.message} (element: {element}{field})"

end Issue

/-- How many of the issues are errors. -/
def errorCount (issues : List Issue) : Nat := issues.countP (·.isError)

/-- How many of the issues are warnings. -/
def warningCount (issues : List Issue) : Nat := issues.length - errorCount issues

end NetGraph
