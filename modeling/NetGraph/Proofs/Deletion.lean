import NetGraph.Proofs.Gate
import NetGraph.Proofs.Store
import Mathlib

/-!
# What a deletion takes along

* `Snapshot.Doomed` : the ids that go when some are listed for deletion, those of listed nodes and of
  nodes drawn inside a listed namespace. `Snapshot.mem_doomed_iff` : they are what is computed;
* `TakesOut` : a list without some of its elements, the others in order, and how many there were;
* `Snapshot.Deletion` : the graph after a deletion and the numbers of what went, in these terms.
  `Store.perform_delete` : a deletion does just this, and done once more it finds nothing to do;
* `Store.delete_orphans_iff` : which namespaces go and leave nodes behind that were drawn inside them.
  `Store.nested_delete_orphans` : one that goes only with the namespace around it does.
-/

namespace NetGraph

/-! ## What is taken out of a list -/

/-- `TakesOut gone l rest k` : without its `k` elements for which `gone` holds, `l` is `rest`. -/
inductive TakesOut {α : Type} (gone : α → Prop) : List α → List α → Nat → Prop where
  | nil : TakesOut gone [] [] 0
  | drop {a : α} {l rest : List α} {k : Nat} : gone a → TakesOut gone l rest k →
      TakesOut gone (a :: l) rest (k + 1)
  | keep {a : α} {l rest : List α} {k : Nat} : ¬ gone a → TakesOut gone l rest k →
      TakesOut gone (a :: l) (a :: rest) k

theorem takesOut_filter {α : Type} {gone : α → Prop} {p : α → Bool}
    (hp : ∀ a, p a = true ↔ ¬ gone a) (l : List α) :
    TakesOut gone l (l.filter p) (l.length - (l.filter p).length) := by
  induction l with
  | nil => exact .nil
  | cons a l ih =>
    have hle : (l.filter p).length ≤ l.length := List.length_filter_le p l
    by_cases h : p a = true
    · rw [List.filter_cons_of_pos h, List.length_cons, List.length_cons,
        show l.length + 1 - ((l.filter p).length + 1) = l.length - (l.filter p).length by omega]
      exact .keep ((hp a).1 h) ih
    · have hgone : gone a := by
        by_contra hkept
        exact h ((hp a).2 hkept)
      rw [List.filter_cons_of_neg h, List.length_cons,
        show l.length + 1 - (l.filter p).length = l.length - (l.filter p).length + 1 by omega]
      exact .drop hgone ih

/-! ## The ids that go -/

namespace Snapshot

/-- The first node under the id is a namespace. -/
def NamesNs (g : Snapshot) (id : String) : Prop := ∃ n, g.node? id = some n ∧ n.isNs = true

/-- `g.Doomed ids id` : when the ids `ids` are listed for deletion, the nodes of the id `id` go. -/
inductive Doomed (g : Snapshot) (ids : List String) : String → Prop where
  | listed {n : Node} : n ∈ g.nodes → n.id ∈ ids → Doomed g ids n.id
  /-- The node is drawn inside a listed namespace. -/
  | inside {n : Node} {p : String} : n ∈ g.nodes → n.parent = some p → p ∈ ids → g.NamesNs p →
      Doomed g ids n.id

section Doomed
variable {g : Snapshot} {ids : List String} {id : String}

theorem mem_known : id ∈ g.known ids ↔ id ∈ ids ∧ ∃ n ∈ g.nodes, n.id = id := by
  rw [known, List.mem_filter, node?, List.find?_isSome]
  simp

/-- Only a node that exists can be a namespace. -/
theorem mem_known_and_namesNs : id ∈ g.known ids ∧ g.NamesNs id ↔ id ∈ ids ∧ g.NamesNs id := by
  rw [mem_known]
  constructor
  · rintro ⟨⟨hid, -⟩, hns⟩
    exact ⟨hid, hns⟩
  · rintro ⟨hid, n, hn, hns⟩
    exact ⟨⟨hid, n, node?_mem hn, node?_id hn⟩, n, hn, hns⟩

theorem mem_doomed_iff : id ∈ g.doomed ids ↔ g.Doomed ids id := by
  rw [doomed, List.mem_append, mem_known]
  simp only [List.mem_map, List.mem_filter, Option.any_eq_true, decide_eq_true_eq]
  constructor
  · rintro (⟨hid, n, hn, rfl⟩ | ⟨n, ⟨hn, p, hp, hns⟩, rfl⟩)
    · exact .listed hn hid
    · obtain ⟨hp', hns⟩ := mem_known_and_namesNs.1 hns
      exact .inside hn hp hp' hns
  · rintro (⟨hn, hid⟩ | ⟨hn, hp, hp', hns⟩)
    · exact .inl ⟨hid, _, hn, rfl⟩
    · exact .inr ⟨_, ⟨hn, _, hp, mem_known_and_namesNs.2 ⟨hp', hns⟩⟩, rfl⟩

theorem hasNode_iff : g.hasNode id = true ↔ ∃ n ∈ g.nodes, n.id = id := by
  simp [hasNode]

end Doomed

/-! ## The graph after a deletion -/

/-- An edge goes that is listed or has an end that goes. -/
def DoomedEdge (g : Snapshot) (nodes edges : List String) (e : Edge) : Prop :=
  e.id ∈ edges ∨ g.Doomed nodes e.source ∨ g.Doomed nodes e.target

/--
`g.Deletion nodes edges next i j` : the deletion of the nodes and edges of these ids leads from `g`
to `next`. It takes out `i` nodes and `j` edges, and no edge that stays loses an end.
-/
structure Deletion (g : Snapshot) (nodes edges : List String) (next : Snapshot) (i j : Nat) :
    Prop where
  keptNodes : TakesOut (fun n => g.Doomed nodes n.id) g.nodes next.nodes i
  keptEdges : TakesOut (g.DoomedEdge nodes edges) g.edges next.edges j
  keptEnds : ∀ e ∈ next.edges, g.hasNode e.source = true → g.hasNode e.target = true →
    next.hasNode e.source = true ∧ next.hasNode e.target = true

section Delete
variable {g : Snapshot} {nodes edges : List String}

theorem mem_delete_nodes {n : Node} :
    n ∈ (g.delete nodes edges).nodes ↔ n ∈ g.nodes ∧ ¬ g.Doomed nodes n.id := by
  rw [delete, List.mem_filter, decide_eq_true_eq, mem_doomed_iff]

theorem mem_delete_edges {e : Edge} :
    e ∈ (g.delete nodes edges).edges ↔ e ∈ g.edges ∧ ¬ g.DoomedEdge nodes edges e := by
  simp [delete, mem_doomed_iff, DoomedEdge, and_assoc]

theorem hasNode_delete {id : String} (h : ¬ g.Doomed nodes id) :
    (g.delete nodes edges).hasNode id = g.hasNode id := by
  rw [Bool.eq_iff_iff, hasNode_iff, hasNode_iff]
  constructor
  · rintro ⟨n, hn, rfl⟩
    exact ⟨n, (mem_delete_nodes.1 hn).1, rfl⟩
  · rintro ⟨n, hn, rfl⟩
    exact ⟨n, mem_delete_nodes.2 ⟨hn, h⟩, rfl⟩

theorem delete_deletion (g : Snapshot) (nodes edges : List String) :
    g.Deletion nodes edges (g.delete nodes edges)
      (g.nodes.length - (g.delete nodes edges).nodes.length)
      (g.edges.length - (g.delete nodes edges).edges.length) := by
  refine ⟨takesOut_filter (fun n => ?_) _, takesOut_filter (fun e => ?_) _, ?_⟩
  · rw [decide_eq_true_eq, mem_doomed_iff]
  · simp [mem_doomed_iff, DoomedEdge, and_assoc]
  · intro e he hs ht
    have hkept := (mem_delete_edges.1 he).2
    have hsource : ¬ g.Doomed nodes e.source := fun h => hkept (.inr (.inl h))
    have htarget : ¬ g.Doomed nodes e.target := fun h => hkept (.inr (.inr h))
    exact ⟨(hasNode_delete hsource).trans hs, (hasNode_delete htarget).trans ht⟩

/-- What is listed is gone after a deletion, so nothing is left that it would take. -/
theorem not_doomed_delete (id : String) : ¬ (g.delete nodes edges).Doomed nodes id := by
  intro h
  cases h with
  | @listed n hn hid =>
    obtain ⟨hmem, hkept⟩ := mem_delete_nodes.1 hn
    exact hkept (.listed hmem hid)
  | @inside n p hn hp hid hns =>
    obtain ⟨m, hm, -⟩ := hns
    obtain ⟨hmem, hkept⟩ := mem_delete_nodes.1 (node?_mem hm)
    exact hkept (.listed hmem (node?_id hm ▸ hid))

theorem delete_delete : (g.delete nodes edges).delete nodes edges = g.delete nodes edges := by
  have hnodes : ((g.delete nodes edges).delete nodes edges).nodes = (g.delete nodes edges).nodes :=
    List.filter_eq_self.2 fun n _ => by simp [mem_doomed_iff, not_doomed_delete]
  have hedges : ((g.delete nodes edges).delete nodes edges).edges = (g.delete nodes edges).edges :=
    List.filter_eq_self.2 fun e he => by
      have hlisted : e.id ∉ edges := fun h => (mem_delete_edges.1 he).2 (.inl h)
      simp [mem_doomed_iff, not_doomed_delete, hlisted]
  cases hnext : (g.delete nodes edges).delete nodes edges with
  | mk nodes' edges' =>
    rw [hnext] at hnodes hedges
    exact Snapshot.mk.injEq .. ▸ ⟨hnodes, hedges⟩

end Delete
end Snapshot

namespace Store

theorem perform_delete_eq (s : Store) (nodes edges : List String) :
    s.perform (.delete nodes edges) =
      (s.commit (s.snapshot.delete nodes edges),
        .ok (.removed (s.snapshot.nodes.length - (s.snapshot.delete nodes edges).nodes.length)
          (s.snapshot.edges.length - (s.snapshot.delete nodes edges).edges.length))) := rfl

/--
A deletion is always carried out. It takes out the nodes and the edges that `Snapshot.Deletion`
tells, and answers how many there were; the same deletion once more takes out nothing.
-/
theorem perform_delete (s : Store) (nodes edges : List String) :
    ∃ t i j, s.perform (.delete nodes edges) = (t, .ok (.removed i j)) ∧
      s.snapshot.Deletion nodes edges t.snapshot i j ∧
      ∃ u, t.perform (.delete nodes edges) = (u, .ok (.removed 0 0)) ∧
        u.snapshot = t.snapshot := by
  have hdeletion := Snapshot.delete_deletion s.snapshot nodes edges
  have hagain := perform_delete_eq (s.commit (s.snapshot.delete nodes edges)) nodes edges
  rw [commit_snapshot, Snapshot.delete_delete, Nat.sub_self, Nat.sub_self] at hagain
  refine ⟨_, _, _, perform_delete_eq s nodes edges, ?_, _, hagain, ?_⟩
  · rwa [commit_snapshot]
  · rw [commit_snapshot, commit_snapshot]

end Store

/-! ## Nodes that are left behind -/

namespace Snapshot

/-- The node `n` is left in `next`, but not the namespace of `g` that it is drawn inside. -/
def Orphan (g next : Snapshot) (n : Node) : Prop :=
  n ∈ next.nodes ∧ ∃ m ∈ g.nodes, m.isNs = true ∧ m ∉ next.nodes ∧ n.parent = some m.id

/--
`g.Overlooked ids m` : when the ids `ids` are listed for deletion, the node `m` goes, but not what is
drawn inside it.
-/
inductive Overlooked (g : Snapshot) (ids : List String) : Node → Prop where
  /-- Its id is listed, but another node comes first under this id, which is no namespace. -/
  | hidden {m : Node} : m.id ∈ ids → ¬ g.NamesNs m.id → Overlooked g ids m
  /-- Its id is not listed; it goes along with a listed namespace. -/
  | nested {m n : Node} {p : String} : m.id ∉ ids → n ∈ g.nodes → n.id = m.id →
      n.parent = some p → p ∈ ids → g.NamesNs p → Overlooked g ids m

section Orphan
variable {g : Snapshot} {nodes edges : List String}

theorem Overlooked.doomed {m : Node} (h : g.Overlooked nodes m) (hm : m ∈ g.nodes) :
    g.Doomed nodes m.id := by
  cases h with
  | hidden hid _ => exact .listed hm hid
  | nested _ hn hid hp hp' hns => exact hid ▸ .inside hn hp hp' hns

/-- What is drawn inside a listed namespace does not stay. -/
theorem not_namesNs_of_kept {n : Node} {p : String} (hn : n ∈ (g.delete nodes edges).nodes)
    (hp : n.parent = some p) (hid : p ∈ nodes) : ¬ g.NamesNs p := by
  intro hns
  obtain ⟨hmem, hkept⟩ := mem_delete_nodes.1 hn
  exact hkept (.inside hmem hp hid hns)

theorem orphan_delete_iff {n : Node} :
    g.Orphan (g.delete nodes edges) n ↔ n ∈ (g.delete nodes edges).nodes ∧
      ∃ m ∈ g.nodes, m.isNs = true ∧ n.parent = some m.id ∧ g.Overlooked nodes m := by
  refine and_congr_right fun hn => exists_congr fun m => and_congr_right fun hm =>
    and_congr_right fun _ => ?_
  rw [mem_delete_nodes, and_comm]
  refine and_congr_right fun hp => ?_
  constructor
  · intro hgone
    have hdoomed : g.Doomed nodes m.id := by
      by_contra hkept
      exact hgone ⟨hm, hkept⟩
    by_cases hid : m.id ∈ nodes
    · exact .hidden hid (not_namesNs_of_kept hn hp hid)
    · generalize hm' : m.id = id at hdoomed
      cases hdoomed with
      | listed _ h => exact absurd h (hm' ▸ hid)
      | inside hn' hp' hp'' hns => exact .nested hid hn' hm'.symm hp' hp'' hns
  · rintro hover ⟨-, hkept⟩
    exact hkept (hover.doomed hm)

theorem namesNs_of_nodup (hids : (g.nodes.map (·.id)).Nodup) {m : Node} (hm : m ∈ g.nodes)
    (hns : m.isNs = true) : g.NamesNs m.id :=
  ⟨m, (node?_eq_some_iff_of_nodup hids).2 ⟨hm, rfl⟩, hns⟩

end Orphan
end Snapshot

namespace Store

/--
A node that a deletion leaves is drawn inside no listed namespace. It is drawn inside a namespace
that went iff this one is overlooked. None is where no two nodes bear one id and no namespace is
drawn inside another.
-/
theorem delete_orphans_iff (s : Store) (nodes edges : List String) :
    (∀ n ∈ (s.perform (.delete nodes edges)).1.snapshot.nodes, ∀ p ∈ nodes, n.parent = some p →
      ¬ s.snapshot.NamesNs p) ∧
    (∀ n, s.snapshot.Orphan (s.perform (.delete nodes edges)).1.snapshot n ↔
      n ∈ (s.perform (.delete nodes edges)).1.snapshot.nodes ∧
        ∃ m ∈ s.snapshot.nodes, m.isNs = true ∧ n.parent = some m.id ∧
          s.snapshot.Overlooked nodes m) ∧
    ((s.snapshot.nodes.map (·.id)).Nodup →
      (∀ m ∈ s.snapshot.nodes, m.isNs = true → ∀ p, m.parent = some p → ¬ s.snapshot.NamesNs p) →
      ∀ n, ¬ s.snapshot.Orphan (s.perform (.delete nodes edges)).1.snapshot n) := by
  rw [perform_delete_eq, commit_snapshot]
  refine ⟨?_, ?_, ?_⟩
  · intro n hn p hid hp
    exact Snapshot.not_namesNs_of_kept hn hp hid
  · exact fun n => Snapshot.orphan_delete_iff
  · intro hids hflat n hn
    obtain ⟨-, m, hm, hns, -, hover⟩ := Snapshot.orphan_delete_iff.1 hn
    cases hover with
    | hidden _ hno => exact hno (Snapshot.namesNs_of_nodup hids hm hns)
    | @nested m' p _ hm' hid hp _ hp' =>
      obtain rfl := List.inj_on_of_nodup_map hids hm' hm hid
      exact hflat m' hm hns p hp hp'

/-- A namespace with another one inside, and a pod group inside of that. -/
def nestedShop : Snapshot where
  nodes :=
    [{ id := "org", body := .ns "org" }, { id := "shop", parent := some "org", body := .ns "shop" },
      { id := "web", parent := some "shop",
        body := .podGroup ⟨"web", "shop", .singleton "app" "web", {}⟩ }]

/-- The inner namespace goes along with the outer one, and the pod group inside of it stays. -/
theorem nested_delete_orphans :
    ∃ n, nestedShop.Orphan
      ((ofSnapshot nestedShop).perform (.delete ["org"] [])).1.snapshot n := by
  refine ⟨{ id := "web", parent := some "shop",
            body := .podGroup ⟨"web", "shop", .singleton "app" "web", {}⟩ }, by decide, ?_⟩
  exact ⟨{ id := "shop", parent := some "org", body := .ns "shop" }, by decide, rfl, by decide, rfl⟩

/-- A namespace with a pod group inside, and a pod group elsewhere with a rule between the two. -/
def flatShop : Snapshot where
  nodes :=
    [{ id := "shop", body := .ns "shop" },
      { id := "web", parent := some "shop",
        body := .podGroup ⟨"web", "shop", .singleton "app" "web", {}⟩ },
      { id := "db", parent := some "web", body := .podGroup ⟨"db", "shop", .singleton "app" "db", {}⟩ }]
  edges := [{ id := "e", source := "web", target := "db" }]

theorem delete_orphans_iff_flatShop :
    ((ofSnapshot flatShop).perform (.delete ["shop"] [])).2 = .ok (.removed 2 1) ∧
      ∀ n, ¬ flatShop.Orphan
        ((ofSnapshot flatShop).perform (.delete ["shop"] [])).1.snapshot n := by
  refine ⟨by decide, (delete_orphans_iff (ofSnapshot flatShop) ["shop"] []).2.2 (by decide) ?_⟩
  -- the only namespace is drawn inside nothing
  intro m hm hns p hp
  obtain rfl | rfl | rfl : m = _ ∨ m = _ ∨ m = _ := by simpa [ofSnapshot, flatShop] using hm
  · cases hp
  · cases hns
  · cases hns

end Store
end NetGraph
