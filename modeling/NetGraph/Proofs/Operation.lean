import NetGraph.Store
import Mathlib

/-!
# What an operation does to a graph

* `editFirst_eq_some_iff`, `editFirst_eq_none_iff` : an edit of the first match changes this element
  and no other, and fails where there is no match;
* `Operation.Yields` : the graph after each operation, and `Operation.Rejected` : the graphs on
  which an operation is refused;
* `Operation.apply_eq_error_iff`, `Operation.yields_of_apply` : an operation is refused for these
  reasons only, and else does what `Operation.Yields` says.
-/

namespace NetGraph

/-! ## The first match -/

section EditFirst
variable {α : Type} {p : α → Bool} {edit : α → α}

theorem editFirst_eq_none_iff {l : List α} : editFirst? p edit l = none ↔ ∀ a ∈ l, p a = false := by
  induction l with
  | nil => simp [editFirst?]
  | cons a rest ih => cases h : p a <;> simp [editFirst?, h, ih]

theorem editFirst_eq_some_iff {l l' : List α} :
    editFirst? p edit l = some l' ↔
      ∃ before a after, l = before ++ a :: after ∧ (∀ b ∈ before, p b = false) ∧ p a = true ∧
        l' = before ++ edit a :: after := by
  induction l generalizing l' with
  | nil => simp [editFirst?]
  | cons x rest ih =>
    rw [editFirst?]
    constructor
    · intro h
      split at h
      · next hx =>
        obtain rfl := Option.some.inj h
        exact ⟨[], x, rest, rfl, by simp, hx, rfl⟩
      · next hx =>
        obtain ⟨l'', hl'', rfl⟩ := Option.map_eq_some_iff.1 h
        obtain ⟨before, a, after, rfl, hbefore, ha, rfl⟩ := ih.1 hl''
        refine ⟨x :: before, a, after, rfl, ?_, ha, rfl⟩
        exact List.forall_mem_cons.2 ⟨Bool.not_eq_true _ ▸ hx, hbefore⟩
    · rintro ⟨before, a, after, hl, hbefore, ha, rfl⟩
      cases before with
      | nil =>
        obtain ⟨rfl, rfl⟩ := List.cons.inj hl
        rw [if_pos ha]
        rfl
      | cons b before =>
        obtain ⟨rfl, rfl⟩ := List.cons.inj hl
        obtain ⟨hx, hbefore⟩ := List.forall_mem_cons.1 hbefore
        rw [if_neg (by simp [hx]), ih.2 ⟨before, a, after, rfl, hbefore, ha, rfl⟩]
        rfl

end EditFirst

/-! ## Operations -/

namespace Snapshot

theorem drawn_eq_ok {g : Snapshot} {id source target : String} {kind : Connection} {e : Edge}
    (h : g.drawn? id source target = .ok (kind, e)) :
    g.connection? source target = .ok kind ∧ ∃ label, e = { id, source, target, label } := by
  unfold drawn? at h
  cases hc : g.connection? source target with
  | error r =>
    rw [hc] at h
    cases h
  | ok k =>
    rw [hc] at h
    obtain ⟨rfl, rfl⟩ := Prod.mk.inj (Except.ok.inj h)
    exact ⟨rfl, _, rfl⟩

theorem drawn_eq_error_iff {g : Snapshot} {id source target : String} {r : ConnectionRefusal} :
    g.drawn? id source target = .error r ↔ g.connection? source target = .error r := by
  unfold drawn?
  cases hc : g.connection? source target with
  | error r' =>
    change Except.error r' = Except.error r ↔ _
    rw [Except.error.injEq, Except.error.injEq]
  | ok k => exact iff_of_false (fun h => nomatch h) (fun h => nomatch h)

end Snapshot

namespace Operation

/-- `Yields g op next` : carried out on the graph `g`, the operation leads to the graph `next`. -/
inductive Yields (g : Snapshot) : Operation → Snapshot → Prop where
  | addNode {n : Node} : (∀ m ∈ g.nodes, m.id ≠ n.id) →
      Yields g (.addNode n) { g with nodes := g.nodes ++ [n] }
  | updateNode {edit : Node → Node} {before after : List Node} {n : Node} :
      g.nodes = before ++ n :: after → (∀ m ∈ before, m.id ≠ n.id) →
      Yields g (.updateNode n.id edit) { g with nodes := before ++ edit n :: after }
  | updateEdge {edit : Edge → Edge} {before after : List Edge} {e : Edge} :
      g.edges = before ++ e :: after → (∀ f ∈ before, f.id ≠ e.id) →
      Yields g (.updateEdge e.id edit) { g with edges := before ++ edit e :: after }
  | connect {id source target : String} {kind : Connection} {label : Option String} :
      g.connection? source target = .ok kind →
      Yields g (.connect id source target)
        { g with edges := g.edges ++ [{ id, source, target, label }] }
  | delete {nodes edges : List String} : Yields g (.delete nodes edges) (g.delete nodes edges)
  | replace {next : Snapshot} : Yields g (.replace next) next

/-- `Rejected g op e` : on the graph `g` the operation is refused with the error `e`. -/
inductive Rejected (g : Snapshot) : Operation → StoreError → Prop where
  | nodeExists {n m : Node} : m ∈ g.nodes → m.id = n.id →
      Rejected g (.addNode n) (.nodeExists n.id)
  | nodeNotFound {id : String} {edit : Node → Node} : (∀ n ∈ g.nodes, n.id ≠ id) →
      Rejected g (.updateNode id edit) (.nodeNotFound id)
  | edgeNotFound {id : String} {edit : Edge → Edge} : (∀ e ∈ g.edges, e.id ≠ id) →
      Rejected g (.updateEdge id edit) (.edgeNotFound id)
  | connection {id source target : String} {r : ConnectionRefusal} :
      g.connection? source target = .error r →
      Rejected g (.connect id source target) (.connection r)

theorem yields_of_apply {g next : Snapshot} {op : Operation} {reply : Reply}
    (h : op.apply g = .ok (next, reply)) : op.Yields g next := by
  cases op with
  | addNode n =>
    simp only [apply] at h
    split at h
    · cases h
    · next hn =>
      obtain ⟨rfl, -⟩ := Prod.mk.inj (Except.ok.inj h)
      exact .addNode (Snapshot.node?_eq_none_iff.1 (Option.not_isSome_iff_eq_none.1 hn))
  | updateNode id edit =>
    simp only [apply] at h
    split at h
    · next hnodes =>
      obtain ⟨rfl, -⟩ := Prod.mk.inj (Except.ok.inj h)
      obtain ⟨before, n, after, hl, hbefore, hid, rfl⟩ := editFirst_eq_some_iff.1 hnodes
      obtain rfl := of_decide_eq_true hid
      exact .updateNode hl fun m hm => of_decide_eq_false (hbefore m hm)
    · cases h
  | updateEdge id edit =>
    simp only [apply] at h
    split at h
    · next hedges =>
      obtain ⟨rfl, -⟩ := Prod.mk.inj (Except.ok.inj h)
      obtain ⟨before, e, after, hl, hbefore, hid, rfl⟩ := editFirst_eq_some_iff.1 hedges
      obtain rfl := of_decide_eq_true hid
      exact .updateEdge hl fun f hf => of_decide_eq_false (hbefore f hf)
    · cases h
  | connect id source target =>
    simp only [apply] at h
    split at h
    · next hdrawn =>
      obtain ⟨rfl, -⟩ := Prod.mk.inj (Except.ok.inj h)
      obtain ⟨hkind, label, rfl⟩ := Snapshot.drawn_eq_ok hdrawn
      exact .connect hkind
    · cases h
  | delete nodes edges =>
    obtain ⟨rfl, -⟩ := Prod.mk.inj (Except.ok.inj h)
    exact .delete
  | replace graph =>
    obtain ⟨rfl, -⟩ := Prod.mk.inj (Except.ok.inj h)
    exact .replace

theorem rejected_of_apply {g : Snapshot} {op : Operation} {e : StoreError}
    (h : op.apply g = .error e) : op.Rejected g e := by
  cases op with
  | addNode n =>
    simp only [apply] at h
    split at h
    · next hn =>
      obtain ⟨m, hm⟩ := Option.isSome_iff_exists.1 hn
      obtain rfl := Except.error.inj h
      exact .nodeExists (List.mem_of_find?_eq_some hm) (Snapshot.node?_id hm)
    · cases h
  | updateNode id edit =>
    simp only [apply] at h
    split at h
    · cases h
    · next hnone =>
      obtain rfl := Except.error.inj h
      exact .nodeNotFound fun n hn => of_decide_eq_false (editFirst_eq_none_iff.1 hnone n hn)
  | updateEdge id edit =>
    simp only [apply] at h
    split at h
    · cases h
    · next hnone =>
      obtain rfl := Except.error.inj h
      exact .edgeNotFound fun f hf => of_decide_eq_false (editFirst_eq_none_iff.1 hnone f hf)
  | connect id source target =>
    simp only [apply] at h
    split at h
    · cases h
    · next hdrawn =>
      obtain rfl := Except.error.inj h
      exact .connection (Snapshot.drawn_eq_error_iff.1 hdrawn)
  | delete nodes edges => cases h
  | replace graph => cases h

theorem Rejected.apply_eq {g : Snapshot} {op : Operation} {e : StoreError}
    (h : op.Rejected g e) : op.apply g = .error e := by
  cases h with
  | @nodeExists n m hm hid =>
    have hsome : (g.node? n.id).isSome = true := by
      rw [Option.isSome_iff_ne_none, ne_eq, Snapshot.node?_eq_none_iff]
      exact fun hno => hno m hm hid
    rw [apply, if_pos hsome]
    rfl
  | @nodeNotFound id edit hno =>
    have hnone : editFirst? (·.id = id) edit g.nodes = none :=
      editFirst_eq_none_iff.2 fun n hn => decide_eq_false (hno n hn)
    simp only [apply, hnone]
    rfl
  | @edgeNotFound id edit hno =>
    have hnone : editFirst? (·.id = id) edit g.edges = none :=
      editFirst_eq_none_iff.2 fun f hf => decide_eq_false (hno f hf)
    simp only [apply, hnone]
    rfl
  | connection hr =>
    simp only [apply, Snapshot.drawn_eq_error_iff.2 hr]
    rfl

theorem apply_eq_error_iff {g : Snapshot} {op : Operation} {e : StoreError} :
    op.apply g = .error e ↔ op.Rejected g e :=
  ⟨rejected_of_apply, Rejected.apply_eq⟩

end Operation
end NetGraph
