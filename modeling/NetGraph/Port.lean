import NetGraph.Identifier
import NetGraph.Text.Case

/-!
# Ports as typed on a rule

* `Protocol` : what a port entry may select; `ICMP` and `ANY` have no port number;
* `PortSyntax.classify` : how a port text is read. A blank text, `any`, a number, a range `a-b` and a
  port name are told apart in this order, so a text of digits is never a name;
* `decimal?` : the value of a text of ASCII digits, of any length;
* `portNumber?` : the values 1 to 65535;
* `portOfDigits?` : the port number that digits stand for. Their value is only ever computed in 32
  bits, after a look at how many there are.
-/

namespace NetGraph

/-- The protocol of one port entry. -/
inductive Protocol where
  | tcp | udp | sctp | icmp | any
  deriving DecidableEq, Repr, Inhabited

namespace Protocol

def name : Protocol → String
  | tcp => "TCP"
  | udp => "UDP"
  | sctp => "SCTP"
  | icmp => "ICMP"
  | any => "ANY"

def all : List Protocol := [tcp, udp, sctp, icmp, any]

def ofName? (s : String) : Option Protocol := all.find? (·.name == s)

/-- ICMP and ANY have no notion of a port number. -/
def ignoresPort : Protocol → Bool
  | icmp | any => true
  | tcp | udp | sctp => false

theorem ofName?_name (p : Protocol) : ofName? p.name = some p := by cases p <;> decide

end Protocol

/-- One pair of port and protocol on a rule; `port` is kept as typed. -/
structure PortEntry where
  id : String
  port : String := ""
  protocol : Protocol := .tcp
  deriving DecidableEq, Repr

/-- The word for "every port". -/
def anyPort : String := "any"

/-- Whether a text is not empty and made of ASCII digits. -/
def isDigits (cs : List Char) : Bool := !cs.isEmpty && cs.all Char.isDigit

/-- The value of a non-empty text of ASCII digits. -/
def decimal? (cs : List Char) : Option Nat :=
  if cs ≠ [] ∧ cs.all Char.isDigit then
    some (cs.foldl (fun n c => 10 * n + (c.toNat - '0'.toNat)) 0)
  else none

/-- A port number, if the value is one: 1 to 65535. -/
def portNumber? (n : Nat) : Option UInt16 :=
  if 1 ≤ n ∧ n ≤ 65535 then some (UInt16.ofNat n) else none

/-- The value of a text of digits, if 32 bits can hold it. -/
def word32? (cs : List Char) : Option UInt32 :=
  (decimal? cs).bind fun n => if n < UInt32.size then some (UInt32.ofNat n) else none

/-- The greatest number of digits of a port number. -/
def portNumberLength : Nat := 5

/-- The port number of a text of digits, which may start with any number of zeros. -/
def portOfDigits? (cs : List Char) : Option UInt16 :=
  let digits := cs.dropWhile (· == '0')
  if digits.length > portNumberLength then none
  else (if digits.isEmpty then some 0 else word32? digits).bind fun n => portNumber? n.toNat

/-- What stands before and after the first hyphen. -/
def splitAtHyphen? (cs : List Char) : Option (List Char × List Char) :=
  match cs.span (· ≠ '-') with
  | (before, _ :: after) => some (before, after)
  | (_, []) => none

/-- The reading of a port text. -/
inductive PortSyntax where
  /-- Nothing but white space. -/
  | empty
  /-- The word `any` in any case. -/
  | any
  | number (n : UInt16)
  /-- Digits, but not of a port number. -/
  | numberOutOfRange
  /-- `first-last`, both of them port numbers. -/
  | range (first last : UInt16)
  /-- Two texts of digits around a hyphen, one of them no port number. -/
  | rangeOutOfBounds
  /-- A DNS label that names a port of the container. -/
  | named
  | invalid
  deriving DecidableEq, Repr

namespace PortSyntax

/-- The reading of two texts of digits around a hyphen, by their port numbers. -/
def ofBounds : Option UInt16 → Option UInt16 → PortSyntax
  | some first, some last => .range first last
  | _, _ => .rangeOutOfBounds

/-- `some` for two texts of digits around the first hyphen. -/
def range? (cs : List Char) : Option PortSyntax := do
  let (before, after) ← splitAtHyphen? cs
  if isDigits before && isDigits after then
    return ofBounds (portOfDigits? before) (portOfDigits? after)
  else none

/-- The reading of `v`; the first class that fits wins. -/
def classify (v : String) : PortSyntax :=
  if Text.isBlank v then .empty
  else if Text.equalsIgnoringCase v anyPort then .any
  else if isDigits v.toList then (portOfDigits? v.toList).elim .numberOutOfRange .number
  else match range? v.toList with
    | some r => r
    | none => if DnsLabel.accepts v then .named else .invalid

/-- Whether a port was asked for: neither blank nor `any`. -/
def isExplicit : PortSyntax → Bool
  | .empty | .any => false
  | _ => true

end PortSyntax
end NetGraph
