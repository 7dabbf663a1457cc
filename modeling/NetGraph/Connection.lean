import NetGraph.Graph

/-!
# Connections

`Snapshot.connection?` decides whether a rule may be drawn between two nodes, and what kind of rule
it is; `Connection.describe` gives the label of the new edge.
-/

namespace NetGraph

/-- The kind of rule between two nodes. -/
inductive Connection where
  | podToPod
  | egressToNs
  | ingressFromNs
  deriving DecidableEq, Repr, Inhabited

/-- Why no rule may be drawn. -/
inductive ConnectionRefusal where
  | nodeNotFound
  | selfConnection
  | nsToNs
  | unsupported
  deriving DecidableEq, Repr

def ConnectionRefusal.message : ConnectionRefusal → String
  | nodeNotFound => "source or target node not found"
  | selfConnection => "a node cannot be connected to itself"
  | nsToNs => "a namespace cannot be connected directly to another namespace"
  | unsupported => "a connection between these elements is not allowed"

namespace Connection

def name : Connection → String
  | podToPod => "PodToPod"
  | egressToNs => "EgressToNamespace"
  | ingressFromNs => "IngressFromNamespace"

/-- The label of a rule from `source` to `target`. -/
def describe (source target : Node) : Connection → String
  | podToPod => s!"rule from {source.displayName} to {target.displayName}"
  | egressToNs => s!"egress from {source.displayName} to namespace {target.displayName}"
  | ingressFromNs => s!"ingress to {target.displayName} from namespace {source.displayName}"

/-- The rule between nodes of these bodies. A pod group has to be at one end. -/
def between : NodeBody → NodeBody → Except ConnectionRefusal Connection
  | .podGroup _, .podGroup _ => pure podToPod
  | .podGroup _, .ns _ => pure egressToNs
  | .ns _, .podGroup _ => pure ingressFromNs
  | .ns _, .ns _ => throw .nsToNs
  | _, _ => throw .unsupported

end Connection

/-- The rule that may be drawn from `source` to `target`. -/
def Snapshot.connection? (g : Snapshot) (source target : String) :
    Except ConnectionRefusal Connection :=
  match g.node? source, g.node? target with
  | some s, some t =>
    if source = target then throw .selfConnection else Connection.between s.body t.body
  | _, _ => throw .nodeNotFound

/-- The new rule from `source` to `target`, with a label that describes it. -/
def Snapshot.drawn? (g : Snapshot) (id source target : String) :
    Except ConnectionRefusal (Connection × Edge) := do
  let kind ← g.connection? source target
  let label := match g.node? source, g.node? target with
    | some s, some t => kind.describe s t
    | _, _ => ""
  return (kind, { id, source, target, label := some label })

end NetGraph
