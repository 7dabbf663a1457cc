import NetGraph.GraphDocument
import NetGraph.Manifest.Reading

/-!
# Reading graphs

`Snapshot.ofYaml` reads a graph from its text, which may be JSON too. A node is read with all the fields
that any kind has, whatever its kind, and then its kind says which of them count; an edge of another
kind than `rule` is kept as such. Only ids have to be there.
-/

namespace NetGraph
open Yaml Yaml.Reader

def DefaultDeny.read : Spot → Yaml.Node → Reader DefaultDeny :=
  record "struct PolicyConfig" (among ["denyIngressByDefault", "denyEgressByDefault"]) []
    ({} : DefaultDeny)
    fun d field spot v => do
      if field = "denyIngressByDefault" then return { d with ingress := ← bool spot v }
      else return { d with egress := ← bool spot v }

/-- The fields of a node, of all kinds together. -/
structure NodeFields where
  id : String := ""
  parent : Option String := none
  kind : String := ""
  group : PodGroup := {}

namespace NodeFields

/-- What the fields say for a node of this kind. -/
def body (f : NodeFields) : NodeBody :=
  if f.kind = "namespace" then .ns f.group.name
  else if f.kind = "podGroup" then .podGroup f.group
  else .unknown

def node (f : NodeFields) : Node := ⟨f.id, f.parent, f.body⟩

def names : List String := ["id", "parent", "kind", "name", "namespace", "labels", "policyConfig"]

def set (f : NodeFields) (field : String) (spot : Spot) (v : Yaml.Node) : Reader NodeFields := do
  if field = "id" then return { f with id := ← string spot v }
  else if field = "parent" then return { f with parent := ← optional string spot v }
  else if field = "kind" then return { f with kind := ← string spot v }
  else if field = "name" then return { f with group.name := ← string spot v }
  else if field = "namespace" then return { f with group.ns := ← string spot v }
  else if field = "labels" then return { f with group.labels := ← Labels.read spot v }
  else return { f with group.defaultDeny := ← DefaultDeny.read spot v }

end NodeFields

def Node.read (spot : Spot) (v : Yaml.Node) : Reader Node :=
  NodeFields.node <$>
    record "struct NodeRecord" (among NodeFields.names) ["id"] ({} : NodeFields) NodeFields.set spot v

/-- Any word but `rule` is an unknown kind. -/
def EdgeKind.ofName (s : String) : EdgeKind := if s = "rule" then .rule else .unknown

def readEdgeKind : Spot → Yaml.Node → Reader EdgeKind := choice [] (some <| EdgeKind.ofName ·)

def readProtocol : Spot → Yaml.Node → Reader Protocol :=
  choice (Protocol.all.map Protocol.name) Protocol.ofName?

def PortEntry.read : Spot → Yaml.Node → Reader PortEntry :=
  record "struct PortEntry" (among ["id", "port", "protocol"]) ["id"] ({ id := "" } : PortEntry)
    fun p field spot v => do
      if field = "id" then return { p with id := ← string spot v }
      else if field = "port" then return { p with port := ← string spot v }
      else return { p with protocol := ← readProtocol spot v }

def Edge.read : Spot → Yaml.Node → Reader Edge :=
  record "struct Edge" (among ["id", "kind", "source", "target", "ports", "label"]) ["id"]
    ({ id := "" } : Edge)
    fun e field spot v => do
      if field = "id" then return { e with id := ← string spot v }
      else if field = "kind" then return { e with kind := ← readEdgeKind spot v }
      else if field = "source" then return { e with source := ← string spot v }
      else if field = "target" then return { e with target := ← string spot v }
      else if field = "ports" then return { e with ports := ← sequence PortEntry.read spot v }
      else return { e with label := ← optional string spot v }

namespace Snapshot

def read : Spot → Yaml.Node → Reader Snapshot :=
  record "struct GraphSnapshot" (among ["nodes", "edges"]) [] ({} : Snapshot)
    fun g field spot v => do
      if field = "nodes" then return { g with nodes := ← sequence Node.read spot v }
      else return { g with edges := ← sequence Edge.read spot v }

/-- The graph of a document. -/
def ofYaml (text : String) : Except ReadError Snapshot := (Document.ofText text).read read

end Snapshot
end NetGraph
