import NetGraph.Proofs.EventLog

/-!
# Replay after any number of changes

* `EventLog.emitAll` : a log in which changes are recorded one after the other, and the numbers that
  they are given;
* `EventLog.Holds.emit`, `EventLog.Holds.emitAll` : one change, and so any number of them, go to the
  end of the history under the numbers that follow;
* `EventLog.Replay` : what a reader gets who knows of all events up to some number: the retained
  events from there on, with no gap iff no more were recorded since than the log retains;
* `EventLog.emitAll_replay` : the replays of a new log are such, whatever is recorded in it.
-/

namespace NetGraph

theorem change_of_mem_numbered {history : List Change} {e : Event} (he : e ∈ numbered history) :
    history[e.seq - 1]? = some e.change := by
  obtain ⟨i, hi, rfl⟩ := List.mem_mapIdx.1 he
  exact List.getElem?_eq_getElem hi

namespace EventLog

/-! ## Recording changes -/

/-- The log after the changes, and the answer to each. -/
def emitAll (log : EventLog) : List Change → EventLog × List (Except EmitError Nat)
  | [] => (log, [])
  | c :: cs =>
    let (next, number) := log.emit c
    let (last, numbers) := next.emitAll cs
    (last, number :: numbers)

theorem emit_eq {log : EventLog} (hc : log.capacity ≠ 0) (c : Change) :
    log.emit c = (log.record c, .ok (log.seq + 1)) := by
  unfold record emit
  rw [if_neg hc]

theorem Holds.emit {log : EventLog} {history : List Change} (h : log.Holds history)
    (hc : log.capacity ≠ 0) (c : Change) :
    log.emit c = (log.record c, .ok (history.length + 1)) ∧
      (log.record c).Holds (history ++ [c]) := by
  rw [emit_eq hc, h.seq]
  exact ⟨rfl, h.record hc c⟩

theorem Holds.emitAll {log : EventLog} {history : List Change} (h : log.Holds history)
    (hc : log.capacity ≠ 0) (changes : List Change) :
    (log.emitAll changes).2 = (List.range' (history.length + 1) changes.length).map .ok ∧
      (log.emitAll changes).1.Holds (history ++ changes) ∧
      (log.emitAll changes).1.capacity = log.capacity := by
  induction changes generalizing log history with
  | nil =>
    rw [List.append_nil]
    exact ⟨rfl, h, rfl⟩
  | cons c changes ih =>
    obtain ⟨hemit, hnext⟩ := h.emit hc c
    obtain ⟨hnumbers, hholds, hcapacity⟩ := ih hnext (by rwa [record_capacity])
    rw [EventLog.emitAll, hemit]
    dsimp only
    refine ⟨?_, ?_, ?_⟩
    · rw [hnumbers, List.length_append, List.length_singleton, List.length_cons, List.range'_succ,
        List.map_cons]
    · rwa [List.append_cons]
    · rw [hcapacity, record_capacity]

/-! ## Replays -/

/--
`Replay capacity history n events` : the events are those of the history above the number `n`, as
far as they are among the last `capacity`, in the order of their numbers and each with its change.
They go on after `n` without a gap iff no more than `capacity` were recorded since, and otherwise
start later, which tells of the loss.
-/
structure Replay (capacity : Nat) (history : List Change) (n : Nat) (events : List Event) :
    Prop where
  numbers : events.map (·.seq) =
    List.range' (max n (history.length - capacity) + 1)
      (history.length - max n (history.length - capacity))
  changes : ∀ e ∈ events, history[e.seq - 1]? = some e.change
  gapless : events.map (·.seq) = List.range' (n + 1) (history.length - n) ↔
    history.length - n ≤ capacity
  lossy : (∃ first, events.head? = some first ∧ n + 1 < first.seq) ↔ capacity < history.length - n

theorem map_seq_stretch_to_end (history : List Change) (a : Nat) :
    (stretch history a history.length).map (·.seq) =
      List.range' (a + 1) (history.length - a) := by
  by_cases ha : a ≤ history.length
  · exact map_seq_stretch ha le_rfl
  · rw [stretch_to_end, List.drop_of_length_le (by rw [length_numbered]; omega),
      Nat.sub_eq_zero_of_le (by omega)]
    rfl

theorem Holds.replay {log : EventLog} {history : List Change} (h : log.Holds history)
    (hc : log.capacity ≠ 0) (n : Nat) : Replay log.capacity history n (log.since n) := by
  have hnumbers := map_seq_stretch_to_end history (max n (history.length - log.capacity))
  rw [← h.since n] at hnumbers
  refine ⟨hnumbers, ?changes, ?gapless, ?lossy⟩
  case changes =>
    intro e he
    rw [h.since n] at he
    exact change_of_mem_numbered (mem_stretch.1 he).1
  case gapless =>
    rw [hnumbers]
    constructor
    · intro heq
      have hlength := congrArg List.length heq
      rw [List.length_range', List.length_range'] at hlength
      omega
    · intro hle
      rw [Nat.max_eq_left (by omega)]
  case lossy =>
    have hhead : (log.since n).head?.map (·.seq) =
        (List.range' (max n (history.length - log.capacity) + 1)
          (history.length - max n (history.length - log.capacity))).head? := by
      rw [← List.head?_map, hnumbers]
    rw [List.head?_range'] at hhead
    split at hhead
    · next hnone =>
      rw [Option.map_eq_none_iff] at hhead
      rw [hhead]
      refine iff_of_false (fun ⟨_, h, _⟩ => nomatch h) ?_
      omega
    · next hsome =>
      obtain ⟨first, hfirst, hseq⟩ := Option.map_eq_some_iff.1 hhead
      rw [hfirst]
      simp only [Option.some.injEq, exists_eq_left', hseq]
      omega

/--
The changes that are recorded in a new log with room get the numbers from one on, the last of which
is the number of the log, and every replay is exact.
-/
theorem emitAll_replay {capacity : Nat} (hc : 1 ≤ capacity) (history : List Change) :
    ∃ log, emitAll { capacity } history = (log, (List.range' 1 history.length).map .ok) ∧
      log.seq = history.length ∧ ∀ n, Replay capacity history n (log.since n) := by
  have hroom : ({ capacity } : EventLog).capacity ≠ 0 := Nat.ne_of_gt hc
  obtain ⟨hnumbers, hholds, hcapacity⟩ := (holds_nil capacity).emitAll hroom history
  rw [List.nil_append] at hholds
  refine ⟨_, Prod.ext rfl hnumbers, hholds.seq, fun n => ?_⟩
  have hreplay := hholds.replay (hcapacity ▸ hroom) n
  rwa [hcapacity] at hreplay

/-- Of three changes, a log of two events has lost the first one to a reader who knows of none. -/
theorem emitAll_replay_lost :
    ∃ log, emitAll { capacity := 2 } [.graph 1 0, .issues 1 0, .graph 2 0] =
        (log, [.ok 1, .ok 2, .ok 3]) ∧
      Replay 2 [.graph 1 0, .issues 1 0, .graph 2 0] 0 (log.since 0) ∧
      ∃ first, (log.since 0).head? = some first ∧ 0 + 1 < first.seq := by
  have hroom : 1 ≤ 2 := by decide
  obtain ⟨log, hemit, -, hreplay⟩ := emitAll_replay hroom [.graph 1 0, .issues 1 0, .graph 2 0]
  exact ⟨log, hemit, hreplay 0, (hreplay 0).lossy.2 (by decide)⟩

end EventLog
end NetGraph
