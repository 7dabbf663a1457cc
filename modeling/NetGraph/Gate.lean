import NetGraph.Compilation
import NetGraph.Manifest
import NetGraph.Text.Case
import NetGraph.Validation

/-!
# The gate before a manifest

* `relevantIssues` : the issues of the target and of the edges that touch it;
* `generate` : a manifest for the selected node, unless one of those issues is an error;
* `Outcome.text` : the manifest under a header of comments that lists the warnings, or comments that
  say why there is none;
* `Node.fileName` : the name of the manifest's file.
-/

namespace NetGraph

/-- The issues on the element `target` itself or on an edge that touches it. -/
def relevantIssues (target : String) (g : Snapshot) (issues : List Issue) : List Issue :=
  issues.filter fun i => match i.elementId with
    | some id => id = target || (g.edge? id).any (·.touches target)
    | none => false

/-- The characters of a file name. -/
def isFileNameChar (c : Char) : Bool :=
  c.isLower || c.isDigit || c == '_' || c == '.' || c == '-'

/-- The display name in lower case, with `_` for what does not belong into a file name. -/
def Node.fileStem (n : Node) : String :=
  String.ofList ((n.displayName.toList.flatMap Text.lowerAscii).map fun c =>
    if isFileNameChar c then c else '_')

/-- The name of the manifest's file. -/
def Node.fileName (n : Node) : String :=
  (if n.fileStem.isEmpty then "network-policy" else n.fileStem) ++ ".yaml"

/-- A manifest that passed the gate. -/
structure Generated where
  target : String
  fileName : String
  policy : Policy
  yaml : String
  warnings : List Issue
  deriving DecidableEq, Repr

/-- What the gate answers. -/
inductive Outcome where
  | noSelection
  | notAPodGroup (id : String)
  | blocked (target : String) (errors : List Issue)
  | refused (reason : Refusal)
  | rendered (manifest : Generated)
  deriving DecidableEq, Repr

/-- A manifest for the node `target`, given the issues of the graph. -/
def generate (target : Option String) (g : Snapshot) (issues : List Issue) : Outcome :=
  match target with
  | none => .noSelection
  | some id => match g.node? id with
    | none => .refused (.targetNotFound id)
    | some node =>
      if !node.isPodGroup then .notAPodGroup id
      else
        let (errors, warnings) := (relevantIssues id g issues).partition (·.isError)
        if !errors.isEmpty then .blocked node.displayName errors
        else match compile id g with
          | .error reason => .refused reason
          | .ok policy => .rendered ⟨node.displayName, node.fileName, policy, policy.render, warnings⟩

/-- Where in its element an issue is, for a comment line. -/
def Issue.place (i : Issue) : String :=
  match i.fieldKey with
  | some key => s!" (field: {key})"
  | none => ""

namespace Generated

/-- The comments above the manifest. -/
def header (m : Generated) : String :=
  if m.warnings.isEmpty then s!"# generated for: {m.target}\n---\n"
  else
    String.join (m.warnings.map fun w => s!"# WARNING: {w.message}{w.place}\n")
      ++ "# --- generated despite the warnings above ---\n"

def text (m : Generated) : String := m.header ++ m.yaml

end Generated

namespace Outcome

def isRendered : Outcome → Bool
  | rendered _ => true
  | _ => false

/-- The manifest, or comments in its place. -/
def text : Outcome → String
  | noSelection => "# Select a PodGroup to generate its NetworkPolicy.\n"
  | notAPodGroup id =>
    s!"# Node '{id}' is not a PodGroup; policies are generated for PodGroups only.\n"
  | blocked target errors =>
    s!"# Cannot generate NetworkPolicy for {target}: fix the errors below.\n"
      ++ String.join (errors.map fun e => s!"# ERROR: {e.message}{e.place}\n")
  | refused reason => s!"# No NetworkPolicy generated: {reason.message}\n"
  | rendered manifest => manifest.text

end Outcome
end NetGraph
