import NetGraph.Manifest
import NetGraph.Yaml.Reader

/-!
# Reading manifests

`Policy.ofYaml` reads a NetworkPolicy from its text. Version, kind, metadata, spec and pod selector have
to be there; what else is absent is empty, and keys that are not known are passed over.
-/

namespace NetGraph
open Yaml Yaml.Reader

/-- A mapping from texts to texts; of two entries with one key the later counts. -/
def Labels.read : Spot → Yaml.Node → Reader Labels :=
  Reader.entries "a map" (∅ : Labels)
    (fun l spot k below v => do
      let key ← string spot k
      return l.insert key (← string below v))
    pure

/-- The labels of a selector. -/
def readSelector : Spot → Yaml.Node → Reader Labels :=
  record "struct LabelSelector" (among ["matchLabels"]) [] (∅ : Labels)
    fun _ _ spot v => Labels.read spot v

/--
Reads a node as plain data that may be anything, to the depth that is left. A tag of the document's
own and an integer of more than 64 bits are refused.
-/
def readContent : Nat → Spot → Yaml.Node → Reader Unit
  | 0, _, _ => return
  | fuel + 1, spot, node => do
    let whenPlain (p : Props) (r : Reader Unit) : Reader Unit :=
      if (p.tag.bind Tag.ownName?).isSome then placed p.mark spot (fail .tagged) else r
    match ← follow node with
    | .scalar p style s =>
      whenPlain p <| placed p.mark spot <|
        match Yaml.Node.scalarFound p.tag style s with
        | .error m => fail m
        | .ok (.int n) =>
          if Yaml.isBelow64 n || Yaml.isAbove64 n then fail (.kind (.int n) "any value") else return
        | .ok _ => return
    | .sequence p items =>
      whenPlain p <| entering p.mark spot fun spot =>
        discard <| itemsFrom (readContent fuel) spot 0 items
    | .mapping p es =>
      whenPlain p <| entering p.mark spot fun spot =>
        es.forM fun (k, v) => do
          readContent fuel spot k
          readContent fuel (spot.step (stepOf k)) v
    | .reference .. | .cut => brokenOff

/-- The port number or the port name that a scalar is. -/
def portValueOf? (tag : Option Tag) (style : Style) (s : String) : Option PortValue :=
  match Yaml.Node.scalarFound tag style s with
  | .ok (.int n) => if 0 ≤ n ∧ n < 65536 then some (.number (UInt16.ofNat n.toNat)) else none
  | .ok (.text s) => some (.name s)
  | _ => none

/-- A port: an integer of 16 bits, or a text. -/
def readPortValue (spot : Spot) (node : Yaml.Node) : Reader PortValue := do
  let node ← follow node
  readContent (spot.depth + 1) spot node
  match node with
  | .scalar p style s =>
    match portValueOf? p.tag style s with
    | some v => return v
    | none => fail (.noForm "PortValue")
  | _ => fail (.noForm "PortValue")

def readTransport : Spot → Yaml.Node → Reader Transport :=
  choice (Transport.all.map Transport.name) Transport.ofName?

def readPolicyPort : Spot → Yaml.Node → Reader PolicyPort :=
  record "struct NetworkPolicyPort" (among ["protocol", "port"]) [] ({} : PolicyPort)
    fun p field spot v => do
      if field = "protocol" then return { p with protocol := ← optional readTransport spot v }
      else return { p with port := ← optional readPortValue spot v }

def readPeer : Spot → Yaml.Node → Reader Peer :=
  record "struct NetworkPolicyPeer" (among ["podSelector", "namespaceSelector"]) [] ({} : Peer)
    fun p field spot v => do
      if field = "podSelector" then return { p with pods := ← optional readSelector spot v }
      else return { p with namespaces := ← optional readSelector spot v }

/-- The name of a rule's type in messages. -/
def Direction.ruleTypeName : Direction → String
  | .egress => "struct EgressRule"
  | .ingress => "struct IngressRule"

def readPolicyRule (d : Direction) : Spot → Yaml.Node → Reader PolicyRule :=
  record d.ruleTypeName (among [d.peersKey, "ports"]) [] ({} : PolicyRule)
    fun r field spot v => do
      if field = d.peersKey then return { r with peers := ← sequence readPeer spot v }
      else return { r with ports := ← sequence readPolicyPort spot v }

/-- The rules of one direction, if they are there. -/
def readSection (d : Direction) : Spot → Yaml.Node → Reader (Option (List PolicyRule)) :=
  optional (sequence (readPolicyRule d))

def readDirection : Spot → Yaml.Node → Reader Direction :=
  choice (Direction.all.map Direction.name) Direction.ofName?

namespace Policy

/-- A policy of which nothing is known yet. -/
def blank : Policy := ⟨"", "", "", "", ∅, [], none, none⟩

def readMetadata (p : Policy) : Spot → Yaml.Node → Reader Policy :=
  record "struct PolicyMetadata" (among ["name", "namespace"]) ["name", "namespace"] p
    fun p field spot v => do
      if field = "name" then return { p with name := ← string spot v }
      else return { p with ns := ← string spot v }

def readSpec (p : Policy) : Spot → Yaml.Node → Reader Policy :=
  record "struct NetworkPolicySpec" (among ["podSelector", "policyTypes", "ingress", "egress"])
    ["podSelector"] p
    fun p field spot v => do
      if field = "podSelector" then return { p with pods := ← readSelector spot v }
      else if field = "policyTypes" then
        return { p with directions := ← sequence readDirection spot v }
      else if field = "ingress" then return { p with ingress := ← readSection .ingress spot v }
      else return { p with egress := ← readSection .egress spot v }

def read : Spot → Yaml.Node → Reader Policy :=
  record "struct NetworkPolicy" (among ["apiVersion", "kind", "metadata", "spec"])
    ["apiVersion", "kind", "metadata", "spec"] blank
    fun p field spot v => do
      if field = "apiVersion" then return { p with apiVersion := ← string spot v }
      else if field = "kind" then return { p with kind := ← string spot v }
      else if field = "metadata" then p.readMetadata spot v
      else p.readSpec spot v

/-- The policy of a manifest. -/
def ofYaml (text : String) : Except ReadError Policy := (Document.ofText text).read read

end Policy
end NetGraph
