import NetGraph.Graph
import NetGraph.Issue

/-!
# Validation

* `Finding` : everything that can be wrong with a node or a rule, as a cause; `Finding.issue` gives
  the message, the element, the field and the severity;
* `Node.findings`, `Edge.findings` : what is wrong with one element. Unknown nodes and edges that are
  no rules have no findings;
* `validate` : the issues of all nodes in order, then those of all edges in order. Nothing is kept
  between two calls.
-/

namespace NetGraph

/-- What a check can find at one field of a pod group. -/
inductive PodGroupFault where
  | name (fault : DnsLabel.Fault)
  | ns (fault : DnsLabel.Fault)
  /-- No labels at all: the group then stands for every pod of its namespace. -/
  | noLabels
  | blankKey (key : String)
  | key (key : String) (fault : LabelPart.Fault)
  | value (key : String) (fault : LabelPart.Fault)
  deriving DecidableEq, Repr

/-- What a check can find at one port entry of a rule. -/
inductive PortFault where
  | empty
  | numberOutOfRange
  /-- The manifest has no ranges. -/
  | range
  | invalid
  /-- The entry's protocol has no port numbers, so that the port says nothing. -/
  | ignored
  deriving DecidableEq, Repr

/-- One thing that is wrong, with the element it is about. -/
inductive Finding where
  | podGroup (node : Node) (fault : PodGroupFault)
  | nsName (node : Node) (fault : DnsLabel.Fault)
  | missingSource (edge : Edge)
  | missingTarget (edge : Edge)
  | port (edge : Edge) (entry : PortEntry) (fault : PortFault)
  deriving DecidableEq, Repr

namespace PodGroupFault

/-- The field at fault. -/
def field : PodGroupFault → String
  | name _ => "metadata.name"
  | ns _ => "metadata.namespace"
  | noLabels => "labels"
  | blankKey k | key k _ | value k _ => s!"labels.\"{k}\""

/-- The message, for a pod group that is called `element`. -/
def message (element : String) : PodGroupFault → String
  | name f => s!"Name of {element} is not a valid DNS-1123 label: {f.message}"
  | ns f => s!"Namespace of {element} is not a valid DNS-1123 label: {f.message}"
  | noLabels =>
    s!"{element} has no labels; an empty podSelector matches every pod in its namespace"
  | blankKey _ => s!"{element}: label key must not be empty"
  | key _ f => s!"{element}: label key {f.message}"
  | value k f => s!"{element}: value of label '{k}' {f.message}"

def severity : PodGroupFault → Severity
  | noLabels => .warning
  | _ => .error

/-- What is wrong with one label. A blank key hides the other checks, an empty value is fine. -/
def ofLabel (k v : String) : List PodGroupFault :=
  if Text.isBlank k then [blankKey k]
  else
    (match LabelPart.check k with
      | .ok _ => []
      | .error f => [key k f]) ++
    (if v.isEmpty then []
      else match LabelPart.check v with
        | .ok _ => []
        | .error f => [value k f])

end PodGroupFault

/-- What is wrong with a pod group: its name, its namespace, then its labels in order. -/
def PodGroup.faults (g : PodGroup) : List PodGroupFault :=
  (match DnsLabel.check g.name with
    | .ok _ => []
    | .error f => [.name f]) ++
  (match DnsLabel.check g.ns with
    | .ok _ => []
    | .error f => [.ns f]) ++
  (if g.labels.isEmpty then [.noLabels]
    else g.labels.entries.flatMap fun e => PodGroupFault.ofLabel e.1 e.2)

namespace PortFault

/-- The fault of the text itself. -/
def ofSyntax : PortSyntax → Option PortFault
  | .empty => some empty
  | .any | .number _ | .named => none
  | .numberOutOfRange => some numberOutOfRange
  | .range _ _ | .rangeOutOfBounds => some range
  | .invalid => some invalid

/-- A port beside a protocol that has no port numbers; only the empty text and `any` are no port. -/
def ofProtocol (p : PortEntry) : Option PortFault :=
  if p.protocol.ignoresPort && !p.port.isEmpty && !Text.equalsIgnoringCase p.port anyPort then
    some ignored
  else none

/-- The message, for the entry `p` of the rule with the id `edgeId`. -/
def message (edgeId : String) (p : PortEntry) : PortFault → String
  | empty => "Port cannot be empty"
  | numberOutOfRange => s!"Port number '{p.port}' must be within 1-65535"
  | range =>
    s!"Port range '{p.port}' is not supported by NetworkPolicy and will be dropped at generation time"
  | invalid =>
    s!"Invalid port format '{p.port}': expected a number, '{anyPort}', or a DNS-1123 port name "
      ++ s!"(max {identifierLimit} characters)"
  | ignored =>
    s!"Protocol {p.protocol.name} (rule {shortId edgeId}) ignores specific ports; "
      ++ s!"port '{p.port}' has no effect"

def severity : PortFault → Severity
  | range | ignored => .warning
  | _ => .error

end PortFault

/-- What is wrong with a port entry: its text, then its protocol. -/
def PortEntry.faults (p : PortEntry) : List PortFault :=
  (PortFault.ofSyntax (.classify p.port)).toList ++ (PortFault.ofProtocol p).toList

/-- The key of a port entry's field. -/
def portField (p : PortEntry) : String := s!"ports[{p.id}].port"

/-- How a finding is reported. -/
def Finding.issue : Finding → Issue
  | .podGroup n f =>
    ⟨f.message s!"PodGroup '{n.displayName}'", some n.id, some f.field, f.severity⟩
  | .nsName n f =>
    ⟨s!"Name of Namespace '{n.displayName}' is not a valid DNS-1123 label: {f.message}",
      some n.id, some "label", .error⟩
  | .missingSource e =>
    ⟨s!"Source node '{e.source}' of rule {shortId e.id} does not exist", some e.id, some "source",
      .error⟩
  | .missingTarget e =>
    ⟨s!"Target node '{e.target}' of rule {shortId e.id} does not exist", some e.id, some "target",
      .error⟩
  | .port e p f => ⟨f.message e.id p, some e.id, some (portField p), f.severity⟩

/-- What is wrong with one node. -/
def Node.findings (n : Node) : List Finding :=
  match n.body with
  | .podGroup g => g.faults.map (.podGroup n)
  | .ns name => match DnsLabel.check name with
    | .ok _ => []
    | .error f => [.nsName n f]
  | .unknown => []

/-- What is wrong with one edge of `g`: an end that is no node, then its ports in order. -/
def Edge.findings (g : Snapshot) (e : Edge) : List Finding :=
  if e.isRule then
    (if g.hasNode e.source then [] else [.missingSource e]) ++
    (if g.hasNode e.target then [] else [.missingTarget e]) ++
    e.ports.flatMap fun p => p.faults.map (.port e p)
  else []

/-- Everything that is wrong with the graph: its nodes in order, then its edges. -/
def Snapshot.findings (g : Snapshot) : List Finding :=
  g.nodes.flatMap Node.findings ++ g.edges.flatMap (Edge.findings g)

/-- The issues of a graph. -/
def validate (g : Snapshot) : List Issue := g.findings.map Finding.issue

end NetGraph
