import NetGraph.Proofs.EventLog
import NetGraph.Proofs.Operation
import NetGraph.Proofs.Store

/-!
# The history of a working graph

* `Store.told` : what a step from one store to the next has to tell, the counts of the graph and, if
  the issues are others than before, theirs;
* `Store.commits`, `Store.history` : the steps of a run that are carried out, and what they tell;
* `Store.perform_holds` : a step is refused and leaves no trace, or records what it has to tell, no
  more and no less;
* `Store.run_history` : so the log of a run holds its history, and what was told last are the counts
  of the current graph and of its issues.
-/

namespace NetGraph

theorem warningCount_eq (issues : List Issue) :
    warningCount issues = issues.countP (·.isWarning) := by
  have hnot : ∀ i : Issue, i.isWarning = !i.isError := by
    intro i
    cases h : i.severity <;> simp [Issue.isWarning, Issue.isError, h]
  have hsum := List.length_eq_countP_add_countP (·.isError) (l := issues)
  simp only [warningCount, errorCount, hnot]
  simp only [Bool.not_eq_true, Bool.decide_eq_false] at hsum
  omega

namespace Change

def graphCounts? : Change → Option (Nat × Nat)
  | graph nodes edges => some (nodes, edges)
  | issues _ _ => none

def issueCounts? : Change → Option (Nat × Nat)
  | graph _ _ => none
  | issues errors warnings => some (errors, warnings)

end Change

/-- The counts that a history told last, by `read`; `first` if it never told any. -/
def lastCounts (read : Change → Option (Nat × Nat)) (first : Nat × Nat) (history : List Change) :
    Nat × Nat :=
  (history.filterMap read).getLast?.getD first

theorem lastCounts_append (read : Change → Option (Nat × Nat)) (first : Nat × Nat)
    (earlier later : List Change) :
    lastCounts read first (earlier ++ later) =
      lastCounts read (lastCounts read first earlier) later := by
  unfold lastCounts
  rw [List.filterMap_append, List.getLast?_append]
  cases (later.filterMap read).getLast? <;> rfl

namespace Snapshot

/-- The numbers of nodes and of edges. -/
def counts (g : Snapshot) : Nat × Nat := (g.nodes.length, g.edges.length)

end Snapshot

/-- The numbers of errors and of warnings. -/
def severityCounts (issues : List Issue) : Nat × Nat :=
  (issues.countP (·.isError), issues.countP (·.isWarning))

namespace Store

/-! ## What is told -/

/--
What there is to tell of a step from `s` to `t`: the counts of the graph of `t`, and then those of
its issues if they are others than before.
-/
def told (s t : Store) : List Change :=
  .graph t.snapshot.nodes.length t.snapshot.edges.length ::
    if t.issues = s.issues then []
    else [.issues (t.issues.countP (·.isError)) (t.issues.countP (·.isWarning))]

/-- The stores before and after each operation that is carried out, in order. -/
def commits (s : Store) : List Operation → List (Store × Store)
  | [] => []
  | op :: ops => match s.perform op with
    | (t, .ok _) => (s, t) :: t.commits ops
    | (t, .error _) => t.commits ops

/-- All that these steps have to tell. -/
def history (steps : List (Store × Store)) : List Change := steps.flatMap fun c => told c.1 c.2

theorem history_cons (c : Store × Store) (steps : List (Store × Store)) :
    history (c :: steps) = told c.1 c.2 ++ history steps := List.flatMap_cons

section Commits
variable {s t : Store} {op : Operation}

theorem commits_of_ok {reply : Reply} (h : s.perform op = (t, .ok reply)) (ops : List Operation) :
    s.commits (op :: ops) = (s, t) :: t.commits ops := by
  simp only [commits, h]

theorem commits_of_error {e : StoreError} (h : s.perform op = (t, .error e))
    (ops : List Operation) : s.commits (op :: ops) = t.commits ops := by
  simp only [commits, h]

end Commits

/-! ## One step -/

@[simp] theorem commit_capacity (s : Store) (g : Snapshot) :
    (s.commit g).log.capacity = s.log.capacity := by
  unfold commit
  dsimp only
  split <;> simp

theorem commit_holds {s : Store} {h : List Change} (hh : s.log.Holds h)
    (hc : s.log.capacity ≠ 0) (g : Snapshot) :
    (s.commit g).log.Holds (h ++ told s (s.commit g)) := by
  have hgraph := hh.record hc (.graph g.nodes.length g.edges.length)
  unfold told
  rw [commit_snapshot, commit_issues]
  unfold commit
  dsimp only
  split
  · exact hgraph
  · rw [warningCount_eq, List.append_cons]
    exact hgraph.record (by simpa using hc) _

/--
A step from `s` is refused, for a reason that `Operation.Rejected` names, and leaves the store as it
was; or it leads to the store of a graph that the operation yields, and has recorded, after the
history `h`, just what there is to tell of it.
-/
def RefusedOrTold (s : Store) (h : List Change) (op : Operation) : Prop :=
  (∃ e, op.Rejected s.snapshot e ∧ s.perform op = (s, .error e)) ∨
    ∃ t reply, (∀ e, ¬ op.Rejected s.snapshot e) ∧ s.perform op = (t, .ok reply) ∧
      op.Yields s.snapshot t.snapshot ∧ t.issues = validate t.snapshot ∧
      t.log.Holds (h ++ told s t)

theorem perform_holds {s : Store} {h : List Change} (hh : s.log.Holds h)
    (hc : s.log.capacity ≠ 0) (op : Operation) : s.RefusedOrTold h op := by
  obtain ⟨g, reply, happly, hp⟩ | ⟨e, happly, hp⟩ := perform_cases s op
  · refine .inr ⟨s.commit g, reply, fun e he => ?_, hp, ?_, ?_, commit_holds hh hc g⟩
    · rw [← Operation.apply_eq_error_iff, happly] at he
      cases he
    · rw [commit_snapshot]
      exact Operation.yields_of_apply happly
    · rw [commit_issues, commit_snapshot]
  · exact .inl ⟨e, Operation.apply_eq_error_iff.1 happly, hp⟩

@[simp] theorem perform_capacity (s : Store) (op : Operation) :
    (s.perform op).1.log.capacity = s.log.capacity := by
  obtain ⟨g, reply, -, hp⟩ | ⟨e, -, hp⟩ := perform_cases s op <;> simp [hp]

/-! ## Runs -/

theorem run_cons (s : Store) (op : Operation) (ops : List Operation) :
    s.run (op :: ops) = (s.perform op).1.run ops := rfl

@[simp] theorem run_capacity (s : Store) (ops : List Operation) :
    (s.run ops).log.capacity = s.log.capacity := by
  induction ops generalizing s with
  | nil => rfl
  | cons op ops ih => rw [run_cons, ih, perform_capacity]

theorem run_holds {s : Store} {h : List Change} (hh : s.log.Holds h) (hc : s.log.capacity ≠ 0)
    (ops : List Operation) : (s.run ops).log.Holds (h ++ history (s.commits ops)) := by
  induction ops generalizing s h with
  | nil =>
    rw [commits, history, List.flatMap_nil, List.append_nil]
    exact hh
  | cons op ops ih =>
    obtain ⟨g, reply, -, hp⟩ | ⟨e, -, hp⟩ := perform_cases s op
    · rw [run_cons, hp, commits_of_ok hp, history_cons, ← List.append_assoc]
      exact ih (commit_holds hh hc g) (by rwa [commit_capacity])
    · rw [run_cons, hp, commits_of_error hp]
      exact ih hh hc

/-- What every step tells last of a store, every run does. -/
theorem lastCounts_history {read : Change → Option (Nat × Nat)} {view : Store → Nat × Nat}
    (hstep : ∀ s t, lastCounts read (view s) (told s t) = view t) (s : Store)
    (ops : List Operation) :
    lastCounts read (view s) (history (s.commits ops)) = view (s.run ops) := by
  induction ops generalizing s with
  | nil => rfl
  | cons op ops ih =>
    obtain ⟨g, reply, -, hp⟩ | ⟨e, -, hp⟩ := perform_cases s op
    · rw [run_cons, hp, commits_of_ok hp, history_cons, lastCounts_append, hstep, ih]
    · rw [run_cons, hp, commits_of_error hp, ih]

theorem lastCounts_told_graph (s t : Store) :
    lastCounts Change.graphCounts? s.snapshot.counts (told s t) = t.snapshot.counts := by
  unfold told
  split <;> rfl

theorem lastCounts_told_issues (s t : Store) :
    lastCounts Change.issueCounts? (severityCounts s.issues) (told s t) =
      severityCounts t.issues := by
  unfold told
  split
  · next h =>
    rw [h]
    rfl
  · rfl

theorem length_history (steps : List (Store × Store)) :
    (history steps).length =
      steps.length + steps.countP fun c => c.2.issues ≠ c.1.issues := by
  induction steps with
  | nil => rfl
  | cons c steps ih =>
    rw [history_cons, List.length_append, ih, List.countP_cons, List.length_cons]
    by_cases h : c.2.issues = c.1.issues
    · simp [told, h]
      omega
    · simp [told, h]
      omega

/--
The store `s` that a run on the graph `g` has led to, by the steps `steps` that were carried out.
The log holds what these steps told, one change for each and a second one for each that changed the
issues; the next operation is refused or told of likewise; and the counts that were told last, or
those of the beginning where none were, are the current ones.
-/
structure Chronicled (g : Snapshot) (steps : List (Store × Store)) (s : Store) : Prop where
  holds : s.log.Holds (history steps)
  seq : s.log.seq = steps.length + steps.countP fun c => c.2.issues ≠ c.1.issues
  next : ∀ op, s.RefusedOrTold (history steps) op
  graph : lastCounts Change.graphCounts? g.counts (history steps) = s.snapshot.counts
  issues : lastCounts Change.issueCounts? (severityCounts (validate g)) (history steps) =
    severityCounts s.issues

theorem run_history (g : Snapshot) (ops : List Operation) :
    Chronicled g ((ofSnapshot g).commits ops) ((ofSnapshot g).run ops) := by
  have hc : (ofSnapshot g).log.capacity ≠ 0 := by
    change storeLogCapacity ≠ 0
    decide
  have hholds : ((ofSnapshot g).run ops).log.Holds (history ((ofSnapshot g).commits ops)) :=
    run_holds (EventLog.holds_nil storeLogCapacity) hc ops
  constructor
  · exact hholds
  · rw [hholds.seq, length_history]
  · exact perform_holds hholds (by rwa [run_capacity])
  · exact lastCounts_history lastCounts_told_graph (ofSnapshot g) ops
  · exact lastCounts_history lastCounts_told_issues (ofSnapshot g) ops

end Store
end NetGraph
