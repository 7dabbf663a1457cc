import NetGraph.Labels

/-!
# Network policies

The `networking.k8s.io/v1` NetworkPolicy as data. An absent direction is left open; a present one
with no rules is closed. A rule without ports allows every port, a selector without labels selects
everything.
-/

namespace NetGraph

/-- A direction of traffic; `egress` sorts before `ingress`. -/
inductive Direction where
  | egress
  | ingress
  deriving DecidableEq, Repr, Inhabited

namespace Direction

def name : Direction → String
  | egress => "Egress"
  | ingress => "Ingress"

def all : List Direction := [egress, ingress]

def ofName? (s : String) : Option Direction := all.find? (·.name == s)

theorem ofName?_name (d : Direction) : ofName? d.name = some d := by cases d <;> decide

end Direction

/-- The protocols that a manifest can name. -/
inductive Transport where
  | tcp | udp | sctp
  deriving DecidableEq, Repr, Inhabited

namespace Transport

def name : Transport → String
  | tcp => "TCP"
  | udp => "UDP"
  | sctp => "SCTP"

def all : List Transport := [tcp, udp, sctp]

def ofName? (s : String) : Option Transport := all.find? (·.name == s)

theorem ofName?_name (t : Transport) : ofName? t.name = some t := by cases t <;> decide

end Transport

/-- A port of a manifest: a number, or the name of a container's port. -/
inductive PortValue where
  | number (n : UInt16)
  | name (s : String)
  deriving DecidableEq, Repr

/-- One permitted combination of protocol and port; an absent part is any. -/
structure PolicyPort where
  protocol : Option Transport := none
  port : Option PortValue := none
  deriving DecidableEq, Repr, Inhabited

/-- Neither protocol nor port. -/
def PolicyPort.isEmpty (p : PolicyPort) : Bool := p.protocol.isNone && p.port.isNone

/-- The other end of a rule: pods by labels, namespaces by labels, or pods in namespaces. -/
structure Peer where
  pods : Option Labels := none
  namespaces : Option Labels := none
  deriving DecidableEq, Repr, Inhabited

/-- Traffic from or to one of the peers on one of the ports. -/
structure PolicyRule where
  peers : List Peer := []
  ports : List PolicyPort := []
  deriving DecidableEq, Repr, Inhabited

/-- A NetworkPolicy. -/
structure Policy where
  apiVersion : String
  kind : String
  name : String
  ns : String
  /-- The labels of the pods that the policy governs. -/
  pods : Labels
  /-- The directions that the policy controls. -/
  directions : List Direction := []
  ingress : Option (List PolicyRule) := none
  egress : Option (List PolicyRule) := none
  deriving DecidableEq, Repr, Inhabited

namespace Policy

def defaultApiVersion : String := "networking.k8s.io/v1"

def defaultKind : String := "NetworkPolicy"

end Policy
end NetGraph
