import NetGraph.EventLog
import NetGraph.Json
import NetGraph.Text.Debug
import NetGraph.Timestamp

/-!
# Events as JSON

An `EventRecord` is an event with the moment at which it was recorded. In JSON it is one flat object: the
number under `seq`, the moment under `at`, the kind of change under `type` and the counts of the
change under their names; other keys are passed over. Number and moment are read first, in the order
of the object, then the change.
-/

namespace NetGraph

/-- An event and its moment. -/
structure EventRecord where
  event : Event
  moment : Timestamp
  deriving DecidableEq, Repr

/-- Why an object is no record of an event. -/
inductive EventFault where
  | kind (found : Json) (expected : String)
  /-- An integer outside of what is expected. -/
  | value (n : Int) (expected : String)
  | missingField (name : String)
  | unknownType (name : String)
  | moment (error : TimestampError)
  deriving Repr

/-- What a value is, in words. -/
def Json.describe : Json → String
  | null => "null"
  | bool b => if b then "boolean `true`" else "boolean `false`"
  | int n => s!"integer `{n}`"
  | text s => s!"string {Text.debug s}"
  | list _ => "sequence"
  | object _ => "map"

def EventFault.message : EventFault → String
  | kind found expected => s!"invalid type: {found.describe}, expected {expected}"
  | value n expected => s!"invalid value: integer `{n}`, expected {expected}"
  | missingField name => s!"missing field `{name}`"
  | unknownType name =>
    s!"unknown variant `{name}`, expected `graphChanged` or `issuesChanged`"
  | moment error => error.message

/-- The kinds of change. -/
inductive ChangeKind where
  | graph
  | issues
  deriving DecidableEq, Repr

namespace ChangeKind

/-- The word under `type`. -/
def name : ChangeKind → String
  | graph => "graphChanged"
  | issues => "issuesChanged"

/-- The names of the two counts. -/
def countNames : ChangeKind → String × String
  | graph => ("nodes", "edges")
  | issues => ("errors", "warnings")

def change (kind : ChangeKind) (a b : Nat) : Change :=
  match kind with
  | graph => .graph a b
  | issues => .issues a b

/-- A kind by its word, or by its place. -/
def read : Json → Except EventFault ChangeKind
  | .text s =>
    if s = graph.name then pure graph
    else if s = issues.name then pure issues
    else throw (.unknownType s)
  | .int n =>
    if n < 0 then throw (.kind (.int n) "variant identifier")
    else if n = 0 then pure graph
    else if n = 1 then pure issues
    else throw (.value n "variant index 0 <= i < 2")
  | v => throw (.kind v "variant identifier")

end ChangeKind

namespace EventRecord

/-- A natural number, which is called `expected` in messages. -/
def natural (expected : String) : Json → Except EventFault Nat
  | .int n => if n < 0 then throw (.value n expected) else pure n.toNat
  | v => throw (.kind v expected)

def readMoment : Json → Except EventFault Timestamp
  | .text s => (Timestamp.ofText s).mapError .moment
  | v => throw (.kind v "an RFC 3339 formatted date and time string")

/-- The value under a key that has to be there. -/
def required (fields : List (String × Json)) (name : String) : Except EventFault Json :=
  (fields.lookup name).elim (throw (.missingField name)) pure

/-- Checks the fields with the names `names`, in the order of the object. -/
def checkFields {α : Type} (names : List String) (read : String → Json → Except EventFault α)
    (fields : List (String × Json)) : Except EventFault Unit :=
  fields.forM fun (k, v) => if k ∈ names then discard (read k v) else pure ()

def readCount (_ : String) (v : Json) : Except EventFault Nat := natural "usize" v

/-- The change that an object tells of. -/
def readChange (fields : List (String × Json)) : Except EventFault Change := do
  let kind ← ChangeKind.read (← required fields "type")
  let (first, second) := kind.countNames
  checkFields [first, second] readCount fields
  let a ← required fields first
  let b ← required fields second
  return kind.change (← readCount first a) (← readCount second b)

/-- The record that an object holds. -/
def ofJson : Json → Except EventFault EventRecord
  | .object fields => do
    checkFields ["seq", "at"]
      (fun k v => if k = "seq" then discard (natural "u64" v) else discard (readMoment v)) fields
    let seq ← required fields "seq"
    let moment ← required fields "at"
    let seq ← natural "u64" seq
    let moment ← readMoment moment
    return ⟨⟨seq, ← readChange fields⟩, moment⟩
  | v => throw (.kind v "struct StoreEvent")

/-- A change as fields. -/
def changeFields : Change → List (String × Json)
  | .graph nodes edges =>
    [("type", .text ChangeKind.graph.name), ("nodes", .int nodes), ("edges", .int edges)]
  | .issues errors warnings =>
    [("type", .text ChangeKind.issues.name), ("errors", .int errors), ("warnings", .int warnings)]

/-- The object that holds a record. -/
def json (r : EventRecord) : Json :=
  .object (("seq", .int r.event.seq) :: changeFields r.event.change ++ [("at", .text r.moment.text)])

end EventRecord
end NetGraph
