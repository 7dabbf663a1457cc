import NetGraph.Connection
import NetGraph.EventLog
import NetGraph.Gate

/-!
# The working graph

* `Operation` : an edit of the graph; `Operation.apply` gives the graph after it, or says why it was
  refused;
* `Store` : a graph with its issues and its events. `Store.perform` runs an operation: a success
  replaces the graph, checks it as a whole and records that the graph changed and, if they differ from
  before, that the issues changed; a refusal leaves everything as it was. `Store.run` runs several.
-/

namespace NetGraph

/-- An edit of the graph. -/
inductive Operation where
  | addNode (node : Node)
  /-- Edits the first node with the id. -/
  | updateNode (id : String) (edit : Node → Node)
  /-- Edits the first edge with the id. -/
  | updateEdge (id : String) (edit : Edge → Edge)
  /-- Draws a rule, under a new id. -/
  | connect (id source target : String)
  | delete (nodes edges : List String)
  | replace (graph : Snapshot)

/-- What a successful operation tells. -/
inductive Reply where
  | done
  | drawn (id : String)
  | removed (nodes edges : Nat)
  deriving DecidableEq, Repr

/-- Why an operation was refused. -/
inductive StoreError where
  | nodeExists (id : String)
  | nodeNotFound (id : String)
  | edgeNotFound (id : String)
  | connection (refusal : ConnectionRefusal)
  deriving DecidableEq, Repr

def StoreError.message : StoreError → String
  | nodeExists id => s!"Node {id} already exists"
  | nodeNotFound id => s!"Node {id} not found"
  | edgeNotFound id => s!"Edge {id} not found"
  | connection refusal => refusal.message

/-- Edits the first element for which `p` holds, if there is one. -/
def editFirst? {α : Type} (p : α → Bool) (edit : α → α) : List α → Option (List α)
  | [] => none
  | a :: rest => if p a then some (edit a :: rest) else (editFirst? p edit rest).map (a :: ·)

namespace Snapshot

/-- The ids of `ids` that name a node. -/
def known (g : Snapshot) (ids : List String) : List String :=
  ids.filter fun id => (g.node? id).isSome

/--
The ids of the nodes that go when those with the ids `ids` are deleted: these, and the nodes that are
drawn inside a namespace among them.
-/
def doomed (g : Snapshot) (ids : List String) : List String :=
  let namespaces := (g.known ids).filter fun id => (g.node? id).any (·.isNs)
  let inside := g.nodes.filter fun n => n.parent.any (· ∈ namespaces)
  g.known ids ++ inside.map (·.id)

/-- The graph without the nodes and edges of these ids, and without the edges that lose an end. -/
def delete (g : Snapshot) (nodes edges : List String) : Snapshot :=
  let gone := g.doomed nodes
  { nodes := g.nodes.filter (·.id ∉ gone)
    edges := g.edges.filter fun e => e.id ∉ edges && e.source ∉ gone && e.target ∉ gone }

end Snapshot

/-- The graph after an operation. -/
def Operation.apply (g : Snapshot) : Operation → Except StoreError (Snapshot × Reply)
  | addNode node =>
    if (g.node? node.id).isSome then throw (.nodeExists node.id)
    else pure ({ g with nodes := g.nodes ++ [node] }, .done)
  | updateNode id edit =>
    match editFirst? (·.id = id) edit g.nodes with
    | some nodes => pure ({ g with nodes }, .done)
    | none => throw (.nodeNotFound id)
  | updateEdge id edit =>
    match editFirst? (·.id = id) edit g.edges with
    | some edges => pure ({ g with edges }, .done)
    | none => throw (.edgeNotFound id)
  | connect id source target =>
    match g.drawn? id source target with
    | .ok (_, edge) => pure ({ g with edges := g.edges ++ [edge] }, .drawn id)
    | .error refusal => throw (.connection refusal)
  | delete nodes edges =>
    let next := g.delete nodes edges
    pure (next, .removed (g.nodes.length - next.nodes.length) (g.edges.length - next.edges.length))
  | replace graph => pure (graph, .done)

/-- How many events a working graph retains. -/
def storeLogCapacity : Nat := 256

/-- A graph with the issues and the events of its edits. -/
structure Store where
  snapshot : Snapshot := {}
  issues : List Issue := []
  log : EventLog := { capacity := storeLogCapacity }
  deriving DecidableEq, Repr, Inhabited

namespace Store

/-- Starts from a graph; its issues are known at once. -/
def ofSnapshot (g : Snapshot) : Store := { snapshot := g, issues := validate g }

/-- Takes over a new graph, with its issues and the events that tell of them. -/
def commit (s : Store) (g : Snapshot) : Store :=
  let issues := validate g
  let log := s.log.record (.graph g.nodes.length g.edges.length)
  if issues = s.issues then { s with snapshot := g, log }
  else
    { snapshot := g, issues, log := log.record (.issues (errorCount issues) (warningCount issues)) }

/-- Runs an operation. -/
def perform (s : Store) (op : Operation) : Store × Except StoreError Reply :=
  match op.apply s.snapshot with
  | .ok (g, reply) => (s.commit g, .ok reply)
  | .error e => (s, .error e)

/-- Runs operations one after the other, whatever becomes of each. -/
def run (s : Store) (ops : List Operation) : Store := ops.foldl (fun s op => (s.perform op).1) s

/-- The gate, on the current graph and its issues. -/
def generate (s : Store) (target : Option String) : Outcome :=
  NetGraph.generate target s.snapshot s.issues

end Store
end NetGraph
