import NetGraph.Graph
import NetGraph.Policy

/-!
# Compilation

* `PortEntry.policyPort?` : a port entry as a port of a manifest, if it can be one;
* `Node.peer?` : a node as the other end of a rule, if it can be one;
* `compile` : the policy that governs one pod group. Each rule that ends in the group gives one
  ingress rule and each rule that starts there one egress rule, in the order of the edges; a rule
  whose other end is no peer gives none. A direction is present if it has a rule or is denied by
  default;
* `Refusal` : why there is no such policy.
-/

namespace NetGraph

/-- The protocol of a manifest, for the ones it can name. -/
def Protocol.transport? : Protocol → Option Transport
  | .tcp => some .tcp
  | .udp => some .udp
  | .sctp => some .sctp
  | .icmp | .any => none

/--
What a port text says in a manifest: `some none` is every port, `none` is a text that a manifest
cannot express (a range, a number out of range, a malformed name).
-/
def PortSyntax.portValue? (text : String) : PortSyntax → Option (Option PortValue)
  | .empty | .any => some none
  | .number n => some (some (.number n))
  | .named => some (some (.name text))
  | .numberOutOfRange | .range _ _ | .rangeOutOfBounds | .invalid => none

/--
A port entry as a port of a manifest. ICMP with a port is dropped, and so is an entry that leaves
neither protocol nor port.
-/
def PortEntry.policyPort? (p : PortEntry) : Option PolicyPort :=
  let reading := PortSyntax.classify p.port
  if p.protocol = .icmp ∧ reading.isExplicit then none
  else do
    let port ← reading.portValue? p.port
    let mapped : PolicyPort := ⟨p.protocol.transport?, port⟩
    if mapped.isEmpty then none else some mapped

/-- The entries that a manifest can express, in order. -/
def policyPorts (entries : List PortEntry) : List PolicyPort :=
  entries.filterMap PortEntry.policyPort?

/-- The label that every namespace carries, with its name as the value. -/
def nsNameLabel : String := "kubernetes.io/metadata.name"

/-- Selects the namespace of this name. -/
def nsSelector (name : String) : Labels := .singleton nsNameLabel name

/--
A node as the other end of a rule of a policy in `policyNs`. A pod group selects its pods, and its
namespace where that is another one; a named namespace selects itself.
-/
def Node.peer? (policyNs : String) (n : Node) : Option Peer :=
  match n.body with
  | .podGroup g =>
    let elsewhere := !g.ns.isEmpty && g.ns ≠ policyNs
    some ⟨some g.labels, if elsewhere then some (nsSelector g.ns) else none⟩
  | .ns name => if name.isEmpty then none else some ⟨none, some (nsSelector name)⟩
  | .unknown => none

/-- The rule for the edge `e`, whose other end is the node `far`. -/
def Edge.policyRule? (g : Snapshot) (policyNs : String) (e : Edge) (far : String) :
    Option PolicyRule := do
  let node ← g.node? far
  let peer ← node.peer? policyNs
  return ⟨[peer], policyPorts e.ports⟩

/-- Why a graph has no policy for a target. -/
inductive Refusal where
  | targetNotFound (id : String)
  | notAPodGroup (id : String)
  | missingNs (id name : String)
  deriving DecidableEq, Repr

def Refusal.message : Refusal → String
  | targetNotFound id => s!"node '{id}' does not exist"
  | notAPodGroup id => s!"node '{id}' is not a PodGroup; policies are generated only for pod groups"
  | missingNs _ name => s!"PodGroup '{name}' has no namespace; set one before generating a policy"

/-- Starts the name of every compiled policy. -/
def policyNameStart : String := "netpol-"

/-- The rules that end in `target`, as rules of a policy in `policyNs`. -/
def ingressRules (g : Snapshot) (target policyNs : String) : List PolicyRule :=
  (g.edges.filter fun e => e.isRule && e.target = target).filterMap
    fun e => e.policyRule? g policyNs e.source

/-- The rules that start in `target`, as rules of a policy in `policyNs`. -/
def egressRules (g : Snapshot) (target policyNs : String) : List PolicyRule :=
  (g.edges.filter fun e => e.isRule && e.source = target).filterMap
    fun e => e.policyRule? g policyNs e.target

/-- A direction is written out if it has rules or is denied by default. -/
def section? (rules : List PolicyRule) (denied : Bool) : Option (List PolicyRule) :=
  if !rules.isEmpty || denied then some rules else none

/-- The directions that are written out, in their order. -/
def directionsOf (ingress egress : Option (List PolicyRule)) : List Direction :=
  (egress.map fun _ => .egress).toList ++ (ingress.map fun _ => .ingress).toList

/-- The policy of a pod group that was found under the id `target`. -/
def PodGroup.policy (g : Snapshot) (target : String) (group : PodGroup) : Policy :=
  let ingress := section? (ingressRules g target group.ns) group.defaultDeny.ingress
  let egress := section? (egressRules g target group.ns) group.defaultDeny.egress
  { apiVersion := Policy.defaultApiVersion
    kind := Policy.defaultKind
    name := policyNameStart ++ (if group.name.isEmpty then shortId target else group.name)
    ns := group.ns
    pods := group.labels
    directions := directionsOf ingress egress
    ingress := ingress
    egress := egress }

/-- The policy that governs the first node with the id `target`. -/
def compile (target : String) (g : Snapshot) : Except Refusal Policy :=
  match g.node? target with
  | none => throw (.targetNotFound target)
  | some node => match node.podGroup? with
    | none => throw (.notAPodGroup target)
    | some group =>
      if group.ns.isEmpty then throw (.missingNs target node.displayName)
      else pure (group.policy g target)

end NetGraph
