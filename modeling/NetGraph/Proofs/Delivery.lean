import NetGraph.Proofs.EventLog

/-!
# Listening and replay fit together

Any number of clients listen to one log, while changes are recorded in it by whomever. An emit is one
step: what it numbers it also retains and passes on before anyone else reads the log.

* `Accounts` : what deliveries stand for, where a lag stands for as many events as it counts.
  `EventLog.Holds.drain_accounts` : a drain stands for all that its listener does not know of;
* `EventLog.Session` : a log and its clients, each with what it got so far;
* `EventLog.Client.Informed` : a client that was told of a whole stretch of the history.
  `EventLog.Session.step_informed` : every action keeps the clients of a session informed;
* `EventLog.Session.run_informed` : so what a client drained is all from its subscription to its
  latest drain, and with a replay in between there is no gap after what was replayed.
-/

namespace NetGraph

/-! ## What deliveries stand for -/

/--
`Accounts ds es` : the deliveries `ds` are the events `es` in order, where a lag stands for so many
of them.
-/
inductive Accounts : List Delivery → List Event → Prop where
  | nil : Accounts [] []
  | event {e : Event} {ds : List Delivery} {es : List Event} : Accounts ds es →
      Accounts (.event e :: ds) (e :: es)
  | lagged {missing : List Event} {ds : List Delivery} {es : List Event} : missing ≠ [] →
      Accounts ds es → Accounts (.lagged missing.length :: ds) (missing ++ es)

/-- The event that is delivered. -/
def Delivery.event? : Delivery → Option Event
  | event e => some e
  | lagged _ => none

namespace Accounts
variable {ds ds' : List Delivery} {es es' : List Event}

theorem map_event (es : List Event) : Accounts (es.map .event) es := by
  induction es with
  | nil => exact .nil
  | cons e es ih => exact .event ih

theorem append (h : Accounts ds es) (h' : Accounts ds' es') : Accounts (ds ++ ds') (es ++ es') := by
  induction h with
  | nil => exact h'
  | event _ ih => exact .event ih
  | lagged hne _ ih =>
    rw [List.append_assoc]
    exact .lagged hne ih

theorem mem (h : Accounts ds es) {e : Event} (he : .event e ∈ ds) : e ∈ es := by
  induction h with
  | nil => cases he
  | event _ ih =>
    rcases List.mem_cons.1 he with heq | he
    · exact List.mem_cons.2 (.inl (Delivery.event.inj heq))
    · exact List.mem_cons_of_mem _ (ih he)
  | lagged _ _ ih =>
    rcases List.mem_cons.1 he with heq | he
    · cases heq
    · exact List.mem_append_right _ (ih he)

/-- Where no lag is told, every event is there. -/
theorem mem_of_no_lag (h : Accounts ds es) (hno : ∀ k, .lagged k ∉ ds) {e : Event} (he : e ∈ es) :
    .event e ∈ ds := by
  induction h with
  | nil => cases he
  | @event a ds es _ ih =>
    have hrest : ∀ k, .lagged k ∉ ds := fun k hk => hno k (List.mem_cons_of_mem _ hk)
    rcases List.mem_cons.1 he with rfl | he
    · exact List.mem_cons_self
    · exact List.mem_cons_of_mem _ (ih hrest he)
  | @lagged missing => exact absurd List.mem_cons_self (hno missing.length)

end Accounts

namespace EventLog

/-- A drain stands for all events that the listener does not know of, and then it knows of all. -/
theorem Holds.drain_accounts {log : EventLog} {history : List Change} (h : log.Holds history)
    {r : Receiver} (hr : r.seen ≤ history.length) :
    Accounts (log.drain r).1 (stretch history r.seen history.length) ∧
      (log.drain r).2.seen = history.length := by
  rw [h.drain hr, h.missed]
  refine ⟨?_, rfl⟩
  generalize liveCapacity = room
  by_cases hlag : history.length - room - r.seen = 0
  · rw [if_pos hlag, show max r.seen (history.length - room) = r.seen by omega]
    exact .map_event _
  · have hmissing : (stretch history r.seen (history.length - room)).length =
        history.length - room - r.seen := length_stretch (by omega)
    have hsplit : stretch history r.seen history.length =
        stretch history r.seen (history.length - room) ++
          stretch history (history.length - room) history.length :=
      (stretch_append_stretch (by omega) (by omega)).symm
    rw [if_neg hlag, hsplit, ← hmissing,
      show max r.seen (history.length - room) = history.length - room by omega]
    refine .lagged (fun hnil => hlag ?_) (.map_event _)
    rw [← hmissing, hnil, List.length_nil]

/-! ## Sessions -/

/-- What is done with a log. Clients have numbers, in the order in which they subscribe. -/
inductive Action where
  | emit (change : Change)
  | subscribe
  /-- A client asks for the retained events after the number `n`. -/
  | replay (client n : Nat)
  | drain (client : Nat)
  deriving DecidableEq, Repr

/-- What a client got at once. -/
inductive Receipt where
  | replayed (n : Nat) (events : List Event)
  | drained (deliveries : List Delivery)
  deriving DecidableEq, Repr

/-- All that was drained. -/
def drainedIn (receipts : List Receipt) : List Delivery :=
  receipts.flatMap fun
    | .replayed _ _ => []
    | .drained ds => ds

@[simp] theorem drainedIn_nil : drainedIn [] = [] := rfl

@[simp] theorem drainedIn_replayed (receipts : List Receipt) (n : Nat) (es : List Event) :
    drainedIn (receipts ++ [.replayed n es]) = drainedIn receipts := by
  simp [drainedIn]

@[simp] theorem drainedIn_drained (receipts : List Receipt) (ds : List Delivery) :
    drainedIn (receipts ++ [.drained ds]) = drainedIn receipts ++ ds := by
  simp [drainedIn]

/-- A client of a log. -/
structure Client where
  receiver : Receiver
  /-- The number of the latest event when it subscribed. -/
  joined : Nat
  /-- The number of the latest event when it last drained; before that, when it subscribed. -/
  caughtUp : Nat
  /-- What it got, the oldest first. -/
  receipts : List Receipt := []
  deriving DecidableEq, Repr

namespace Client

def replay (c : Client) (log : EventLog) (n : Nat) : Client :=
  { c with receipts := c.receipts ++ [.replayed n (log.since n)] }

def drain (c : Client) (log : EventLog) : Client where
  receiver := (log.drain c.receiver).2
  joined := c.joined
  caughtUp := log.seq
  receipts := c.receipts ++ [.drained (log.drain c.receiver).1]

/-- The events that the client drained. -/
def received (c : Client) : List Event := (drainedIn c.receipts).filterMap Delivery.event?

theorem mem_received {c : Client} {e : Event} :
    e ∈ c.received ↔ .event e ∈ drainedIn c.receipts := by
  rw [received, List.mem_filterMap]
  constructor
  · rintro ⟨d, hd, he⟩
    cases d with
    | event _ =>
      obtain rfl := Option.some.inj he
      exact hd
    | lagged _ => cases he
  · exact fun h => ⟨_, h, rfl⟩

end Client

/-- A log with its clients. -/
structure Session where
  log : EventLog
  clients : List Client := []
  deriving DecidableEq, Repr

namespace Session

def step (s : Session) : Action → Session
  | .emit change => { s with log := s.log.record change }
  | .subscribe => { s with clients := s.clients ++ [⟨s.log.subscribe, s.log.seq, s.log.seq, []⟩] }
  | .replay i n => { s with clients := s.clients.modify i (·.replay s.log n) }
  | .drain i => { s with clients := s.clients.modify i (·.drain s.log) }

/-- A session on a new log. -/
def run (capacity : Nat) (actions : List Action) : Session :=
  actions.foldl step { log := { capacity } }

end Session

/-- The changes that these actions record, in order. -/
def emitted (actions : List Action) : List Change :=
  actions.filterMap fun
    | .emit change => some change
    | _ => none

theorem emitted_append (actions later : List Action) :
    emitted (actions ++ later) = emitted actions ++ emitted later := List.filterMap_append

/-! ## Informed clients -/

/--
`ReplayedAmid capacity history caughtUp n es later` : the events `es` were replayed after the number
`n`, at a moment `m` when the client had drained all up to `u`; what it got later, up to `caughtUp`,
goes on from `u`.
-/
def ReplayedAmid (capacity : Nat) (history : List Change) (caughtUp n : Nat) (es : List Event)
    (later : List Receipt) : Prop :=
  ∃ u m, u ≤ m ∧ m ≤ history.length ∧ u ≤ caughtUp ∧
    es = stretch history (max n (m - capacity)) m ∧
    Accounts (drainedIn later) (stretch history u caughtUp)

/--
A client of a log with this history: it drained the stretch from its subscription to its latest
drain, and each of its replays reaches up to the moment of the replay.
-/
structure Client.Informed (capacity : Nat) (history : List Change) (c : Client) : Prop where
  seen : c.receiver.seen = c.caughtUp
  joined_le : c.joined ≤ c.caughtUp
  caughtUp_le : c.caughtUp ≤ history.length
  drained : Accounts (drainedIn c.receipts) (stretch history c.joined c.caughtUp)
  replayed : ∀ earlier n es later, c.receipts = earlier ++ .replayed n es :: later →
    ReplayedAmid capacity history c.caughtUp n es later

theorem eq_or_of_concat_eq_append_cons {α : Type} {l earlier later : List α} {x y : α}
    (h : l ++ [x] = earlier ++ y :: later) :
    (later = [] ∧ l = earlier ∧ x = y) ∨ ∃ mid, later = mid ++ [x] ∧ l = earlier ++ y :: mid := by
  rcases List.eq_nil_or_concat' later with rfl | ⟨mid, z, rfl⟩
  · obtain ⟨hl, hx⟩ := List.append_inj' h rfl
    exact .inl ⟨rfl, hl, List.singleton_inj.1 hx⟩
  · rw [← List.cons_append, ← List.append_assoc] at h
    obtain ⟨hl, hx⟩ := List.append_inj' h rfl
    obtain rfl := List.singleton_inj.1 hx
    exact .inr ⟨mid, rfl, hl⟩

namespace Client.Informed
variable {capacity : Nat} {history : List Change} {log : EventLog} {c : Client}

/-- Changes that are recorded meanwhile do not touch what a client was told. -/
theorem record (h : c.Informed capacity history) (later : List Change) :
    c.Informed capacity (history ++ later) := by
  have hle := h.caughtUp_le
  have hlength : history.length ≤ (history ++ later).length := by
    rw [List.length_append]
    omega
  refine ⟨h.seen, h.joined_le, by omega, ?_, fun earlier n es rest hc => ?_⟩
  · rw [stretch_append hle]
    exact h.drained
  · obtain ⟨u, m, hum, hm, hu, hes, hrest⟩ := h.replayed earlier n es rest hc
    refine ⟨u, m, hum, by omega, hu, ?_, ?_⟩
    · rw [stretch_append hm]
      exact hes
    · rw [stretch_append hle]
      exact hrest

theorem subscribe (hlog : log.Holds history) :
    Informed capacity history ⟨log.subscribe, log.seq, log.seq, []⟩ where
  seen := rfl
  joined_le := le_rfl
  caughtUp_le := hlog.seq.le
  drained := by
    rw [stretch_self]
    exact .nil
  replayed earlier n es later h := by
    have hlength := congrArg List.length h
    rw [List.length_append] at hlength
    simp at hlength

theorem replay (h : c.Informed capacity history) (hlog : log.Holds history)
    (hcapacity : log.capacity = capacity) (n : Nat) :
    (c.replay log n).Informed capacity history where
  seen := h.seen
  joined_le := h.joined_le
  caughtUp_le := h.caughtUp_le
  drained := by
    rw [Client.replay, drainedIn_replayed]
    exact h.drained
  replayed := by
    intro earlier n' es later hc
    obtain ⟨rfl, -, heq⟩ | ⟨mid, rfl, hmid⟩ := eq_or_of_concat_eq_append_cons hc
    · -- the replay that was just made: nothing was drained since
      obtain ⟨rfl, rfl⟩ := Receipt.replayed.inj heq
      refine ⟨c.caughtUp, history.length, h.caughtUp_le, le_rfl, le_rfl, ?_, ?_⟩
      · rw [hlog.since, hcapacity]
      · rw [Client.replay, drainedIn_nil, stretch_self]
        exact .nil
    · obtain ⟨u, m, hum, hm, hu, hes, hrest⟩ := h.replayed earlier n' es mid hmid
      refine ⟨u, m, hum, hm, hu, hes, ?_⟩
      rw [Client.replay, drainedIn_replayed]
      exact hrest

theorem drain (h : c.Informed capacity history) (hlog : log.Holds history) :
    (c.drain log).Informed capacity history := by
  have hseen : c.receiver.seen ≤ history.length := h.seen.trans_le h.caughtUp_le
  obtain ⟨hfresh, hnow⟩ := hlog.drain_accounts hseen
  rw [h.seen] at hfresh
  refine ⟨hnow.trans hlog.seq.symm, ?_, hlog.seq.le, ?_, fun earlier n es later hc => ?_⟩
  · exact (h.joined_le.trans h.caughtUp_le).trans_eq hlog.seq.symm
  · rw [Client.drain, drainedIn_drained, hlog.seq,
      ← stretch_append_stretch h.joined_le h.caughtUp_le]
    exact h.drained.append hfresh
  · obtain ⟨-, -, heq⟩ | ⟨mid, rfl, hmid⟩ := eq_or_of_concat_eq_append_cons hc
    · cases heq
    · obtain ⟨u, m, hum, hm, hu, hes, hrest⟩ := h.replayed earlier n es mid hmid
      refine ⟨u, m, hum, hm, (hu.trans h.caughtUp_le).trans_eq hlog.seq.symm, hes, ?_⟩
      rw [Client.drain, drainedIn_drained, hlog.seq, ← stretch_append_stretch hu h.caughtUp_le]
      exact hrest.append hfresh

end Client.Informed

namespace Session

/-- A session whose log holds this history and whose clients are informed of it. -/
structure Informed (capacity : Nat) (history : List Change) (s : Session) : Prop where
  logCapacity : s.log.capacity = capacity
  holds : s.log.Holds history
  clients : ∀ c ∈ s.clients, c.Informed capacity history

section Informed
variable {capacity : Nat} {history : List Change} {s : Session}

theorem informed_new (capacity : Nat) : Informed capacity [] { log := { capacity } } :=
  ⟨rfl, holds_nil capacity, fun _ hc => nomatch hc⟩

theorem Informed.modify (h : s.Informed capacity history) {f : Client → Client}
    (hf : ∀ c, c.Informed capacity history → (f c).Informed capacity history) (i : Nat) :
    Informed capacity history { s with clients := s.clients.modify i f } := by
  refine ⟨h.logCapacity, h.holds, fun c hc => ?_⟩
  obtain ⟨j, hj, rfl⟩ := List.getElem_of_mem hc
  rw [List.getElem_modify]
  have hold := h.clients _ (List.getElem_mem (by simpa using hj))
  split
  · exact hf _ hold
  · exact hold

theorem step_informed (hc : capacity ≠ 0) (h : s.Informed capacity history) (a : Action) :
    (s.step a).Informed capacity (history ++ emitted [a]) := by
  cases a with
  | emit change =>
    have hroom : s.log.capacity ≠ 0 := h.logCapacity ▸ hc
    refine ⟨(record_capacity s.log change).trans h.logCapacity, h.holds.record hroom change, ?_⟩
    exact fun c hmem => (h.clients c hmem).record [change]
  | subscribe =>
    rw [show emitted [.subscribe] = [] from rfl, List.append_nil]
    refine ⟨h.logCapacity, h.holds, List.forall_mem_append.2 ⟨h.clients, ?_⟩⟩
    exact List.forall_mem_singleton.2 (.subscribe h.holds)
  | replay i n =>
    rw [show emitted [.replay i n] = [] from rfl, List.append_nil]
    exact h.modify (fun c hclient => hclient.replay h.holds h.logCapacity n) i
  | drain i =>
    rw [show emitted [.drain i] = [] from rfl, List.append_nil]
    exact h.modify (fun c hclient => hclient.drain h.holds) i

theorem foldl_informed (hc : capacity ≠ 0) (h : s.Informed capacity history)
    (actions : List Action) :
    (actions.foldl step s).Informed capacity (history ++ emitted actions) := by
  induction actions generalizing s history with
  | nil => simpa [emitted] using h
  | cons a actions ih =>
    rw [List.foldl_cons, ← List.singleton_append, emitted_append, ← List.append_assoc]
    exact ih (step_informed hc h a)

end Informed

/-- From the number `first` on, these events have every number up to their greatest. -/
def GaplessFrom (first : Nat) (es : List Event) : Prop :=
  ∀ e ∈ es, ∀ k, first ≤ k → k ≤ e.seq → ∃ e' ∈ es, e'.seq = k

theorem exists_mem_stretch (history : List Change) {a b k : Nat} (ha : a < k) (hk : k ≤ b)
    (hb : b ≤ history.length) : ∃ e ∈ stretch history a b, e.seq = k := by
  have hmem : k ∈ (stretch history a b).map (·.seq) := by
    rw [map_seq_stretch (by omega) hb, List.mem_range'_1]
    omega
  exact List.mem_map.1 hmem

/--
A replay together with all that was drained has no gap after what was replayed, if no lag was told
after the replay.
-/
theorem gaplessFrom_of_replayed {capacity : Nat} {history : List Change} {c : Client}
    (h : c.Informed capacity history) {earlier later : List Receipt} {n : Nat} {es : List Event}
    (hc : c.receipts = earlier ++ .replayed n es :: later)
    (hno : ∀ k, .lagged k ∉ drainedIn later) {e : Event} (he : e ∈ es) :
    GaplessFrom e.seq (es ++ c.received) := by
  obtain ⟨u, m, hum, hm, hu, rfl, hlater⟩ := h.replayed earlier n es later hc
  have hlast : ∀ e' ∈ stretch history (max n (m - capacity)) m ++ c.received,
      e'.seq ≤ max m c.caughtUp := by
    intro e' he'
    rcases List.mem_append.1 he' with he' | he'
    · exact (mem_stretch.1 he').2.2.trans (Nat.le_max_left _ _)
    · have hmem := h.drained.mem (Client.mem_received.1 he')
      exact (mem_stretch.1 hmem).2.2.trans (Nat.le_max_right _ _)
  have hfirst := (mem_stretch.1 he).2.1
  intro e' he' k hek hke'
  have hkmax := hke'.trans (hlast e' he')
  by_cases hk : k ≤ m
  · obtain ⟨x, hx, rfl⟩ := exists_mem_stretch history (a := max n (m - capacity)) (by omega) hk hm
    exact ⟨x, List.mem_append_left _ hx, rfl⟩
  · -- what is numbered after the moment of the replay was drained after it
    obtain ⟨x, hx, rfl⟩ := exists_mem_stretch history (a := u) (k := k) (by omega)
      (by omega) h.caughtUp_le
    have hdrained : .event x ∈ drainedIn c.receipts := by
      rw [hc]
      have hin := hlater.mem_of_no_lag hno hx
      simp only [drainedIn, List.flatMap_append, List.flatMap_cons, List.mem_append] at hin ⊢
      exact .inr (.inr hin)
    exact ⟨x, List.mem_append_right _ (Client.mem_received.2 hdrained), rfl⟩

/--
In every session on a log with room, the log holds just what was emitted, under consecutive numbers.
What a client drained stands for all events from the one after its subscription to the last one
before its latest drain. What it was replayed are events of the log as well, and, if no lag was told
after a replay, this and all that was drained have no gap after what was replayed.
-/
theorem run_informed {capacity : Nat} (hc : capacity ≠ 0) (actions : List Action) :
    (run capacity actions).log.Holds (emitted actions) ∧
    ∀ c ∈ (run capacity actions).clients,
      c.joined ≤ c.caughtUp ∧ c.caughtUp ≤ (run capacity actions).log.seq ∧
      Accounts (drainedIn c.receipts) (stretch (emitted actions) c.joined c.caughtUp) ∧
      (stretch (emitted actions) c.joined c.caughtUp).map (·.seq) =
        List.range' (c.joined + 1) (c.caughtUp - c.joined) ∧
      ∀ earlier n es later, c.receipts = earlier ++ .replayed n es :: later →
        (∀ e ∈ es ++ c.received, e ∈ numbered (emitted actions)) ∧
        ((∀ k, .lagged k ∉ drainedIn later) → ∀ e ∈ es, GaplessFrom e.seq (es ++ c.received)) := by
  have h : (run capacity actions).Informed capacity (emitted actions) :=
    foldl_informed hc (informed_new capacity) actions
  refine ⟨h.holds, fun c hmem => ?_⟩
  have hclient := h.clients c hmem
  refine ⟨hclient.joined_le, hclient.caughtUp_le.trans_eq h.holds.seq.symm, hclient.drained,
    map_seq_stretch hclient.joined_le hclient.caughtUp_le, fun earlier n es later hrs => ⟨?_, ?_⟩⟩
  · intro e he
    obtain ⟨u, m, -, -, -, rfl, -⟩ := hclient.replayed earlier n es later hrs
    rcases List.mem_append.1 he with he | he
    · exact (mem_stretch.1 he).1
    · exact (mem_stretch.1 (hclient.drained.mem (Client.mem_received.1 he))).1
  · exact fun hno e he => gaplessFrom_of_replayed hclient hrs hno he

/-- A client that listens, asks for a replay and drains, with an event before each of these. -/
def handoff : List Action :=
  [.emit (.graph 1 0), .subscribe, .emit (.issues 1 0), .replay 0 0, .emit (.graph 2 0), .drain 0,
    .emit (.graph 2 1), .drain 0]

/-- The client of `handoff` in the end. -/
def handoffClient : Client where
  receiver := ⟨4⟩
  joined := 1
  caughtUp := 4
  receipts :=
    [.replayed 0 [⟨1, .graph 1 0⟩, ⟨2, .issues 1 0⟩],
      .drained [.event ⟨2, .issues 1 0⟩, .event ⟨3, .graph 2 0⟩],
      .drained [.event ⟨4, .graph 2 1⟩]]

theorem run_informed_handoff :
    (run 2 handoff).clients = [handoffClient] ∧
      GaplessFrom 1 ([⟨1, .graph 1 0⟩, ⟨2, .issues 1 0⟩] ++ handoffClient.received) := by
  have hclients : (run 2 handoff).clients = [handoffClient] := by decide +kernel
  have hmem : handoffClient ∈ (run 2 handoff).clients := by rw [hclients]; exact List.mem_cons_self
  obtain ⟨-, hall⟩ := run_informed (show 2 ≠ 0 by decide) handoff
  obtain ⟨-, hgapless⟩ := (hall handoffClient hmem).2.2.2.2 [] 0 _ _ rfl
  exact ⟨hclients, hgapless (by simp [drainedIn]) ⟨1, .graph 1 0⟩ List.mem_cons_self⟩

end Session
end EventLog
end NetGraph
