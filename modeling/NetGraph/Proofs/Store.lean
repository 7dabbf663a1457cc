import NetGraph.Store

/-!
# The issues of a working graph are up to date

* `perform_cases` : what one operation does to a store, be it carried out or refused;
* `Store.Consistent` : the issues of a store are those of its graph. A commit brings this about,
  even where it leaves the list of issues alone, and a refusal keeps it;
* `run_consistent` : so do any operations one after the other;
* `run_generate` : the gate of a store is therefore that of its graph, checked afresh.
-/

namespace NetGraph.Store

/-! ## One operation -/

/-- An operation commits the graph that it yields, or is refused and leaves the store alone. -/
theorem perform_cases (s : Store) (op : Operation) :
    (∃ g reply, op.apply s.snapshot = .ok (g, reply) ∧ s.perform op = (s.commit g, .ok reply)) ∨
      ∃ e, op.apply s.snapshot = .error e ∧ s.perform op = (s, .error e) := by
  unfold perform
  cases h : op.apply s.snapshot with
  | ok r => exact .inl ⟨r.1, r.2, rfl, rfl⟩
  | error e => exact .inr ⟨e, rfl, rfl⟩

@[simp] theorem commit_snapshot (s : Store) (g : Snapshot) : (s.commit g).snapshot = g := by
  unfold commit
  dsimp only
  split <;> rfl

/-- Whether the list of issues is replaced or found to be the same, it is that of the new graph. -/
@[simp] theorem commit_issues (s : Store) (g : Snapshot) : (s.commit g).issues = validate g := by
  unfold commit
  dsimp only
  split
  · next h => exact h.symm
  · rfl

/-! ## The invariant -/

/-- The issues are those of the graph. -/
def Consistent (s : Store) : Prop := s.issues = validate s.snapshot

theorem ofSnapshot_consistent (g : Snapshot) : (ofSnapshot g).Consistent := rfl

theorem commit_consistent (s : Store) (g : Snapshot) : (s.commit g).Consistent := by
  rw [Consistent, commit_issues, commit_snapshot]

theorem perform_consistent {s : Store} (h : s.Consistent) (op : Operation) :
    (s.perform op).1.Consistent := by
  obtain ⟨g, reply, -, hp⟩ | ⟨e, -, hp⟩ := perform_cases s op
  · rw [hp]
    exact commit_consistent s g
  · rw [hp]
    exact h

theorem run_consistent {s : Store} (h : s.Consistent) (ops : List Operation) :
    (s.run ops).Consistent := by
  induction ops generalizing s with
  | nil => exact h
  | cons op ops ih => exact ih (perform_consistent h op)

theorem generate_of_consistent {s : Store} (h : s.Consistent) (target : Option String) :
    s.generate target = NetGraph.generate target s.snapshot (validate s.snapshot) := by
  rw [generate, h]

/--
Whatever operations are run on a store that was started from a graph, its issues are those of the
graph that it then holds, and its gate answers as the gate does after a check of this graph.
-/
theorem run_generate (g : Snapshot) (ops : List Operation) :
    ((ofSnapshot g).run ops).issues = validate ((ofSnapshot g).run ops).snapshot ∧
      ∀ target, ((ofSnapshot g).run ops).generate target =
        NetGraph.generate target ((ofSnapshot g).run ops).snapshot
          (validate ((ofSnapshot g).run ops).snapshot) := by
  have h := run_consistent (ofSnapshot_consistent g) ops
  exact ⟨h, generate_of_consistent h⟩

end NetGraph.Store
