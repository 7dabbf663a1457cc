import NetGraph.Labels
import NetGraph.Port

/-!
# The graph

* `Node` : a namespace, a pod group or something else that was drawn, with an id and, as decoration,
  the id of the node it is drawn inside;
* `Edge` : a directed edge between two ids; a rule says that traffic from source to target is allowed;
* `Snapshot` : nodes and edges in order. Nothing is checked: ids may repeat and edges may dangle, and
  a look-up by id finds the first.
-/

namespace NetGraph

/-- Which directions a pod group closes for traffic that no rule allows. -/
structure DefaultDeny where
  ingress : Bool := false
  egress : Bool := false
  deriving DecidableEq, Repr, Inhabited

/--
The pods that carry `labels` in the Kubernetes namespace `ns`. The namespace is a text of its own,
whatever node the group is drawn inside.
-/
structure PodGroup where
  name : String := ""
  ns : String := ""
  labels : Labels := ∅
  defaultDeny : DefaultDeny := {}
  deriving DecidableEq, Repr, Inhabited

/-- What a node stands for. -/
inductive NodeBody where
  /-- A namespace; the empty name means "not named yet". -/
  | ns (name : String)
  | podGroup (group : PodGroup)
  /-- Any other kind: nothing is checked of it and it is no end of a rule. -/
  | unknown
  deriving DecidableEq, Repr, Inhabited

/-- A node of the graph; `parent` is the id of the node it is drawn inside. -/
structure Node where
  id : String
  parent : Option String := none
  body : NodeBody := .unknown
  deriving DecidableEq, Repr, Inhabited

namespace Node

def podGroup? (n : Node) : Option PodGroup :=
  match n.body with
  | .podGroup g => some g
  | _ => none

/-- The name of a namespace node. -/
def nsName? (n : Node) : Option String :=
  match n.body with
  | .ns name => some name
  | _ => none

def isPodGroup (n : Node) : Bool := n.podGroup?.isSome

def isNs (n : Node) : Bool := n.nsName?.isSome

/-- The node's own name; empty for an unknown kind. -/
def name (n : Node) : String :=
  match n.body with
  | .podGroup g => g.name
  | .ns name => name
  | .unknown => ""

/-- The node's own name, or its id while it has none. -/
def displayName (n : Node) : String :=
  if n.name.isEmpty then n.id else n.name

end Node

inductive EdgeKind where
  /-- Traffic from source to target is allowed. -/
  | rule
  /-- Drawn for another purpose; neither checked nor compiled. -/
  | unknown
  deriving DecidableEq, Repr, Inhabited

/-- A directed edge between the nodes of two ids. -/
structure Edge where
  id : String
  kind : EdgeKind := .rule
  source : String := ""
  target : String := ""
  /-- In the order of the manifest; none at all means every port. -/
  ports : List PortEntry := []
  label : Option String := none
  deriving DecidableEq, Repr, Inhabited

namespace Edge

def isRule (e : Edge) : Bool := e.kind = .rule

/-- Whether `id` is one of the edge's ends. -/
def touches (e : Edge) (id : String) : Bool := e.source = id || e.target = id

end Edge

/-- The state of a graph at one moment. -/
structure Snapshot where
  nodes : List Node := []
  edges : List Edge := []
  deriving DecidableEq, Repr, Inhabited

namespace Snapshot

/-- The first node with this id. -/
def node? (g : Snapshot) (id : String) : Option Node := g.nodes.find? (·.id = id)

/-- The first edge with this id. -/
def edge? (g : Snapshot) (id : String) : Option Edge := g.edges.find? (·.id = id)

/-- The rules with `id` at one of their ends. -/
def rulesTouching (g : Snapshot) (id : String) : List Edge :=
  g.edges.filter fun e => e.isRule && e.touches id

/-- Whether a pod group is drawn inside the node `id`. -/
def holdsPodGroup (g : Snapshot) (id : String) : Bool :=
  g.nodes.any fun n => n.isPodGroup && n.parent = some id

/-- Whether some node has this id. -/
def hasNode (g : Snapshot) (id : String) : Bool := g.nodes.any (·.id = id)

/-- An edge id that no edge of the graph has. -/
def unusedEdgeId (g : Snapshot) : String :=
  "edge-" ++ String.join (g.edges.map (·.id))

theorem node?_id {g : Snapshot} {id : String} {n : Node} (h : g.node? id = some n) : n.id = id := by
  simpa using List.find?_some h

theorem node?_eq_none_iff {g : Snapshot} {id : String} :
    g.node? id = none ↔ ∀ n ∈ g.nodes, n.id ≠ id := by
  simp [node?]

theorem edge?_id {g : Snapshot} {id : String} {e : Edge} (h : g.edge? id = some e) : e.id = id := by
  simpa using List.find?_some h

end Snapshot
end NetGraph
