import NetGraph.Graph
import NetGraph.Manifest

/-!
# Graphs as documents

`Snapshot.value` is a graph as a tree of mappings: a node is its id, its parent if it has one, its
kind and then what belongs to the kind; an edge is written in full, with its label if it has one.
-/

namespace NetGraph
open Yaml (Value)

/-- The word for a node's kind. -/
def NodeBody.kindName : NodeBody → String
  | .ns _ => "namespace"
  | .podGroup _ => "podGroup"
  | .unknown => "unknown"

def DefaultDeny.value (d : DefaultDeny) : Value :=
  .map [("denyIngressByDefault", .bool d.ingress), ("denyEgressByDefault", .bool d.egress)]

/-- What a node's kind adds to its mapping. -/
def NodeBody.entries : NodeBody → List (String × Value)
  | .ns name => [("name", .text name)]
  | .podGroup g => [
      ("name", .text g.name),
      ("namespace", .text g.ns),
      ("labels", g.labels.value),
      ("policyConfig", g.defaultDeny.value)]
  | .unknown => []

def Node.value (n : Node) : Value :=
  .map (("id", .text n.id) :: (n.parent.map fun p => ("parent", Value.text p)).toList
    ++ ("kind", .text n.body.kindName) :: n.body.entries)

/-- The word for an edge's kind. -/
def EdgeKind.name : EdgeKind → String
  | .rule => "rule"
  | .unknown => "unknown"

def PortEntry.value (p : PortEntry) : Value :=
  .map [("id", .text p.id), ("port", .text p.port), ("protocol", .text p.protocol.name)]

def Edge.value (e : Edge) : Value :=
  .map ([
      ("id", .text e.id),
      ("kind", .text e.kind.name),
      ("source", .text e.source),
      ("target", .text e.target),
      ("ports", .seq (e.ports.map PortEntry.value))]
    ++ (e.label.map fun l => ("label", Value.text l)).toList)

namespace Snapshot

def value (g : Snapshot) : Value :=
  .map [("nodes", .seq (g.nodes.map Node.value)), ("edges", .seq (g.edges.map Edge.value))]

/-- The text of the graph. -/
def render (g : Snapshot) : String := g.value.write

end Snapshot
end NetGraph
