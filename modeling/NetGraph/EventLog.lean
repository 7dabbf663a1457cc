/-!
# The event log

* `Change`, `Event` : what changed in a working graph, numbered from one without gaps;
* `EventLog.emit` : records a change. The log retains its latest events, as many as its capacity, for
  those who come late (`since`), and a longer stretch for those who listen (`live`);
* `Receiver` : a listener, by the last event that it knows of. `EventLog.drain` gives it everything
  since, after the number of events that it was too slow for.

Listeners are served through a broadcast channel, which `live`, `subscribe`, `missed` and `drain` stand
for. Of such a channel it is documented that

* it keeps the latest messages, as many as its capacity (which is rounded up to a power of two, and
  `liveCapacity` is one);
* a receiver gets what is sent after it subscribed, each message once and in the order of sending;
* a receiver that has not yet got a message when the channel gives it up is told first how many it
  lost in this way, and then goes on with the oldest message that is kept.

Every event is sent as it is numbered, and nothing else is sent, so that the number of an event is its
position in the channel. A receiver is therefore told by a number, and what it lost is a difference of
numbers.
-/

namespace NetGraph

/-- What changed. -/
inductive Change where
  /-- The graph, which now has so many nodes and edges. -/
  | graph (nodes edges : Nat)
  /-- The list of issues, which now has so many errors and warnings. -/
  | issues (errors warnings : Nat)
  deriving DecidableEq, Repr, Inhabited

/-- A numbered change. -/
structure Event where
  /--
  Numbers have no bound here. A counter of 64 bits would overflow at the event `2 ^ 64`, which no log
  lives to see.
  -/
  seq : Nat
  change : Change
  deriving DecidableEq, Repr, Inhabited

/-- The capacity of the channel: how many of the latest events a listener can still get. -/
def liveCapacity : Nat := 1024

/-- The events of a working graph. -/
structure EventLog where
  capacity : Nat
  /-- The number of the latest event, without a bound as in `Event`. -/
  seq : Nat := 0
  /-- The latest events for replay, the oldest first. -/
  retained : List Event := []
  /-- The latest events for listeners, which the channel keeps, the oldest first. -/
  live : List Event := []
  deriving DecidableEq, Repr, Inhabited

/-- A listener: the number of the last event that it knows of. -/
structure Receiver where
  seen : Nat
  deriving DecidableEq, Repr, Inhabited

/-- What a listener gets. -/
inductive Delivery where
  | event (e : Event)
  /-- So many events were dropped before the next one. -/
  | lagged (count : Nat)
  deriving DecidableEq, Repr

/-- Why an event could not be recorded. -/
inductive EmitError where
  /-- A log of capacity 0 has no room for any event. -/
  | noRoom
  deriving DecidableEq, Repr

namespace EventLog

/-- Adds `e` at the end; a full list gives up its first element. -/
def slide {α : Type} (capacity : Nat) (es : List α) (e : α) : List α :=
  (if es.length < capacity then es else es.drop 1) ++ [e]

/-- Records a change and gives its number. A log without room only counts it. -/
def emit (log : EventLog) (change : Change) : EventLog × Except EmitError Nat :=
  let seq := log.seq + 1
  if log.capacity = 0 then ({ log with seq }, .error .noRoom)
  else
    let e : Event := ⟨seq, change⟩
    ({ log with
        seq
        retained := slide log.capacity log.retained e
        live := slide liveCapacity log.live e },
      .ok seq)

/-- The log after a change. -/
def record (log : EventLog) (change : Change) : EventLog := (log.emit change).1

/-- The retained events after the number `n`. -/
def since (log : EventLog) (n : Nat) : List Event := log.retained.filter (·.seq > n)

/-- A listener to all events from now on. -/
def subscribe (log : EventLog) : Receiver := ⟨log.seq⟩

/-- How many events a listener missed for good: those between what it knows of and what is kept. -/
def missed (log : EventLog) (r : Receiver) : Nat :=
  match log.live.head? with
  | some e => e.seq - 1 - r.seen
  | none => 0

/-- Everything a listener can get now: how much it lost, if anything, then what is kept. -/
def drain (log : EventLog) (r : Receiver) : List Delivery × Receiver :=
  let fresh := log.live.filter (·.seq > r.seen)
  let lag := if log.missed r = 0 then [] else [Delivery.lagged (log.missed r)]
  (lag ++ fresh.map .event, ⟨(fresh.getLast?.map (·.seq)).getD r.seen⟩)

end EventLog
end NetGraph
