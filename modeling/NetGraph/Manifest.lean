import NetGraph.Policy
import NetGraph.Yaml.Value

/-!
# Manifests

* `Policy.value` : a policy as a tree of mappings in the order of the manifest; what is absent is
  left out, an empty selector and an empty list of peers are kept;
* `Policy.render` : its text.
-/

namespace NetGraph
open Yaml (Value)

/-- A label map as a mapping from texts to texts, in the order of the keys. -/
def Labels.value (l : Labels) : Value := .map (l.entries.map fun e => (e.1, .text e.2))

/-- A selector of everything that carries the labels. -/
def selectorValue (l : Labels) : Value := .map [("matchLabels", l.value)]

def PortValue.value : PortValue → Value
  | .number n => .nat n.toNat
  | .name s => .text s

def PolicyPort.value (p : PolicyPort) : Value :=
  .map ((p.protocol.map fun t => ("protocol", Value.text t.name)).toList
    ++ (p.port.map fun v => ("port", v.value)).toList)

def Peer.value (p : Peer) : Value :=
  .map ((p.pods.map fun l => ("podSelector", selectorValue l)).toList
    ++ (p.namespaces.map fun l => ("namespaceSelector", selectorValue l)).toList)

/-- The key of a rule's peers. -/
def Direction.peersKey : Direction → String
  | .egress => "to"
  | .ingress => "from"

def PolicyRule.value (d : Direction) (r : PolicyRule) : Value :=
  .map ((d.peersKey, .seq (r.peers.map Peer.value))
    :: (if r.ports.isEmpty then [] else [("ports", .seq (r.ports.map PolicyPort.value))]))

/-- The rules of one direction, if it is present. -/
def sectionEntry (key : String) (d : Direction) (rules : Option (List PolicyRule)) :
    List (String × Value) :=
  (rules.map fun rs => (key, Value.seq (rs.map (PolicyRule.value d)))).toList

namespace Policy

def specValue (p : Policy) : Value :=
  .map (("podSelector", selectorValue p.pods)
    :: (if p.directions.isEmpty then []
      else [("policyTypes", .seq (p.directions.map fun d => .text d.name))])
    ++ sectionEntry "ingress" .ingress p.ingress
    ++ sectionEntry "egress" .egress p.egress)

def value (p : Policy) : Value :=
  .map [
    ("apiVersion", .text p.apiVersion),
    ("kind", .text p.kind),
    ("metadata", .map [("name", .text p.name), ("namespace", .text p.ns)]),
    ("spec", p.specValue)]

/-- The text of the manifest. -/
def render (p : Policy) : String := p.value.write

end Policy
end NetGraph
