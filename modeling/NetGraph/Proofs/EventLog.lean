import NetGraph.EventLog
import Mathlib

/-!
# What an event log holds

* `numbered` : the events that tell of a history of changes, numbered from one; `stretch` : those
  with the numbers from one moment to another;
* `EventLog.Holds` : a log that has recorded exactly this history: its number is the length of the
  history, and it has kept the latest events, for replay as many as its capacity;
* `EventLog.Holds.record` : a further change is put at the end of the history;
* `EventLog.Holds.since`, `EventLog.Holds.drain` : a replay and a listener get a stretch of the history
  that reaches up to the present.
-/

namespace NetGraph

/-- The events that tell of these changes. -/
def numbered (history : List Change) : List Event := history.mapIdx fun i c => ⟨i + 1, c⟩

theorem numbered_concat (history : List Change) (c : Change) :
    numbered (history ++ [c]) = numbered history ++ [⟨history.length + 1, c⟩] := by
  simp [numbered]

/-! ## Stretches of a history -/

@[simp] theorem length_numbered (history : List Change) :
    (numbered history).length = history.length := List.length_mapIdx

theorem numbered_take (history : List Change) (k : Nat) :
    (numbered history).take k = (numbered history).filter (·.seq ≤ k) := by
  induction history using List.reverseRecOn with
  | nil => simp [numbered]
  | append_singleton history c ih =>
    rw [numbered_concat, List.filter_append, ← ih, List.take_append, length_numbered]
    congr 1
    by_cases h : history.length + 1 ≤ k
    · rw [List.take_of_length_le (by simp; omega)]
      simp [h]
    · rw [show k - history.length = 0 by omega]
      simp [h]

theorem numbered_drop (history : List Change) (k : Nat) :
    (numbered history).drop k = (numbered history).filter (k < ·.seq) := by
  induction history using List.reverseRecOn with
  | nil => simp [numbered]
  | append_singleton history c ih =>
    rw [numbered_concat, List.filter_append, ← ih, List.drop_append, length_numbered]
    congr 1
    by_cases h : k < history.length + 1
    · rw [show k - history.length = 0 by omega]
      simp [h]
    · rw [List.drop_of_length_le (by simp; omega)]
      simp [h]

theorem map_seq_numbered (history : List Change) :
    (numbered history).map (·.seq) = List.range' 1 history.length := by
  induction history using List.reverseRecOn with
  | nil => rfl
  | append_singleton history c ih =>
    rw [numbered_concat, List.map_append, ih, List.length_append, List.length_singleton,
      List.range'_concat]
    simp [Nat.add_comm]

theorem numbered_of_take (history : List Change) (k : Nat) :
    numbered (history.take k) = (numbered history).take k := by
  refine List.ext_getElem? fun i => ?_
  rw [List.getElem?_take]
  by_cases h : i < k
  · simp [numbered, h]
  · simp [numbered, h]

/-- The events of a history that are numbered above `a` and not above `b`. -/
def stretch (history : List Change) (a b : Nat) : List Event := ((numbered history).take b).drop a

section Stretch
variable {history : List Change} {a b c : Nat}

theorem mem_stretch {e : Event} :
    e ∈ stretch history a b ↔ e ∈ numbered history ∧ a < e.seq ∧ e.seq ≤ b := by
  rw [stretch, ← numbered_of_take, numbered_drop, numbered_of_take, numbered_take]
  simp [and_assoc, and_comm]

theorem stretch_self (history : List Change) (a : Nat) : stretch history a a = [] := by
  rw [stretch, List.drop_take, Nat.sub_self, List.take_zero]

theorem stretch_append_stretch (hab : a ≤ b) (hbc : b ≤ c) :
    stretch history a b ++ stretch history b c = stretch history a c := by
  simp only [stretch, List.drop_take]
  rw [show c - a = (b - a) + (c - b) by omega, List.take_add, List.drop_drop,
    show a + (b - a) = b by omega]

theorem stretch_to_end (history : List Change) (a : Nat) :
    stretch history a history.length = (numbered history).drop a := by
  rw [stretch, List.take_of_length_le (length_numbered history).le]

theorem length_stretch (hb : b ≤ history.length) : (stretch history a b).length = b - a := by
  rw [stretch, List.length_drop, List.length_take, length_numbered, Nat.min_eq_left hb]

/-- What is recorded later does not change what is numbered. -/
theorem stretch_append (hb : b ≤ history.length) (later : List Change) :
    stretch (history ++ later) a b = stretch history a b := by
  rw [stretch, stretch, ← numbered_of_take, ← numbered_of_take, List.take_append_of_le_length hb]

theorem map_seq_stretch (hab : a ≤ b) (hb : b ≤ history.length) :
    (stretch history a b).map (·.seq) = List.range' (a + 1) (b - a) := by
  have hlength : (history.take b).length = a + (b - a) := by rw [List.length_take]; omega
  rw [stretch, ← numbered_of_take, List.map_drop, map_seq_numbered, hlength, ← List.range'_append_1,
    List.drop_left' List.length_range', Nat.add_comm]

end Stretch

namespace EventLog

/-! ## What is recorded -/

/-- A list that is kept to its last `n` elements is moved on by its newest one. -/
theorem slide_rtake {α : Type} {n : Nat} (hn : n ≠ 0) (l : List α) (a : α) :
    slide n (l.rtake n) a = (l ++ [a]).rtake n := by
  have hlen : (l ++ [a]).length - n ≤ l.length := by
    rw [List.length_append, List.length_singleton]
    omega
  unfold slide List.rtake
  rw [List.drop_append_of_le_length hlen]
  congr 1
  rw [List.length_drop, List.length_append, List.length_singleton]
  split
  · congr 1
    omega
  · rw [List.drop_drop]
    congr 1
    omega

/-- The log has recorded exactly the changes of `history`, and retains the latest events. -/
structure Holds (log : EventLog) (history : List Change) : Prop where
  seq : log.seq = history.length
  retained : log.retained = (numbered history).rtake log.capacity
  live : log.live = (numbered history).rtake liveCapacity

theorem holds_nil (capacity : Nat) : Holds { capacity } [] := by
  constructor <;> simp [numbered]

@[simp] theorem record_capacity (log : EventLog) (c : Change) :
    (log.record c).capacity = log.capacity := by
  unfold record emit
  dsimp only
  split <;> rfl

theorem record_eq {log : EventLog} (hc : log.capacity ≠ 0) (c : Change) :
    log.record c =
      { log with
        seq := log.seq + 1
        retained := slide log.capacity log.retained ⟨log.seq + 1, c⟩
        live := slide liveCapacity log.live ⟨log.seq + 1, c⟩ } := by
  unfold record emit
  rw [if_neg hc]

theorem Holds.record {log : EventLog} {history : List Change} (h : log.Holds history)
    (hc : log.capacity ≠ 0) (c : Change) : (log.record c).Holds (history ++ [c]) := by
  rw [record_eq hc]
  constructor
  · rw [h.seq, List.length_append, List.length_singleton]
  · rw [h.retained, h.seq, slide_rtake hc, numbered_concat]
  · rw [h.live, h.seq, slide_rtake (by decide), numbered_concat]

/-! ## What is read -/

section Reading
variable {log : EventLog} {history : List Change}

/-- What is numbered above `n` in a history of which the last `c` events are kept. -/
theorem filter_numbered_rtake (history : List Change) (c n : Nat) :
    ((numbered history).rtake c).filter (·.seq > n) =
      stretch history (max n (history.length - c)) history.length := by
  rw [stretch_to_end, numbered_drop, List.rtake, length_numbered, numbered_drop, List.filter_filter]
  refine List.filter_congr fun e _ => ?_
  rw [Bool.eq_iff_iff]
  simp

theorem Holds.since (h : log.Holds history) (n : Nat) :
    log.since n = stretch history (max n (history.length - log.capacity)) history.length := by
  rw [EventLog.since, h.retained, filter_numbered_rtake]

theorem Holds.missed (h : log.Holds history) (r : Receiver) :
    log.missed r = history.length - liveCapacity - r.seen := by
  unfold EventLog.missed
  rw [h.live, List.rtake, length_numbered, List.head?_drop]
  cases hat : (numbered history)[history.length - liveCapacity]? with
  | none =>
    have hle := List.getElem?_eq_none_iff.1 hat
    rw [length_numbered] at hle
    have hzero : history.length = 0 := by
      unfold liveCapacity at hle
      omega
    simp [hzero]
  | some e =>
    have hseq : e.seq = history.length - liveCapacity + 1 := by
      rw [numbered, List.getElem?_mapIdx, Option.map_eq_some_iff] at hat
      obtain ⟨c, -, rfl⟩ := hat
      rfl
    dsimp only
    omega

/-- Whoever knows of all before a stretch of the latest events, and gets these, knows of all. -/
theorem getLast_stretch {a c : Nat} (ha : a ≤ history.length) (hc : c ≠ 0) :
    ((stretch history (max a (history.length - c)) history.length).getLast?.map (·.seq)).getD a =
      history.length := by
  rw [stretch_to_end, List.getLast?_drop, length_numbered]
  rcases List.eq_nil_or_concat' history with rfl | ⟨earlier, last, rfl⟩
  · simpa using ha
  · rw [numbered_concat, List.getLast?_concat]
    split
    · next hall =>
      rw [List.length_append, List.length_singleton] at *
      simp
      omega
    · simp

theorem Holds.drain (h : log.Holds history) {r : Receiver} (hr : r.seen ≤ history.length) :
    log.drain r =
      ((if log.missed r = 0 then [] else [.lagged (log.missed r)]) ++
        (stretch history (max r.seen (history.length - liveCapacity)) history.length).map .event,
       ⟨history.length⟩) := by
  unfold EventLog.drain
  dsimp only
  rw [h.live, filter_numbered_rtake, getLast_stretch hr (by decide)]

end Reading
end EventLog
end NetGraph
