import NetGraph.Proofs.Runs
import Mathlib.Tactic.MkIffOfInductiveProp

/-!
# A document with one more node

* `Document.Adds ρ k n d d'` : the document `d'` is the document `d` of a graph, with the node `n` as
  item `k` of its list of nodes. Places do not matter, and if `n` brings anchors, `ρ` renumbers those
  of `d`;
* `Document.Adds.serves` : the aliases of `d` serve in `d'`, and as many may be followed;
* `Document.Adds.entries` : the entries of `d'`, where `d` has entries for a graph.
  `Document.first_of_entriesWith` and `Document.last_of_entriesWith` go through them.
-/

namespace NetGraph

/-- The list with one more item `k`, or with the item at its end if it is shorter. -/
def insertAt {α : Type} (k : Nat) (a : α) (l : List α) : List α := l.take k ++ a :: l.drop k

theorem insertAt_nil {α : Type} (k : Nat) (a : α) : insertAt k a [] = [a] := by
  rw [insertAt, List.take_nil, List.drop_nil, List.nil_append]

namespace Yaml
open Reader

namespace Document
variable (ρ : Nat → Nat) (k : Nat) (n : Node) (d : Document)

/-- The list of nodes `v`, bare, with one more. -/
def listWith (v : Node) : Node :=
  match d.resolve v with
  | .sequence p items =>
    .sequence { mark := {}, tag := p.tag } (insertAt k (n.bare id) (Node.bareAll ρ items))
  | other => if isEmptyPlain other then .sequence { mark := {} } [n.bare id] else v.bare ρ

/-- The entries of a graph, bare, with one more node. -/
def entriesWith : List (Node × Node) → List (Node × Node)
  | [] => [(.scalar { mark := {} } .plain "nodes", .sequence { mark := {} } [n.bare id])]
  | (key, v) :: rest =>
    if (d.resolve key).text? = some "nodes" then
      (key.bare ρ, d.listWith ρ k n v) :: Node.bareEntries ρ rest
    else (key.bare ρ, v.bare ρ) :: entriesWith rest

/-- The root of the document, bare, with one more node. -/
def rootWith : Node :=
  match d.root with
  | .mapping p es => .mapping { mark := {}, tag := p.tag } (d.entriesWith ρ k n es)
  | other =>
    if isEmptyPlain other then .mapping { mark := {} } (d.entriesWith ρ k n []) else other.bare ρ

/--
The document `d'` is the document `d` with the node `n` as item `k` of its list of nodes. The aliases of
`d` lead to the same nodes as before.
-/
@[mk_iff]
structure Adds (d d' : Document) : Prop where
  root : d'.root.bare id = d.rootWith ρ k n
  targets : ∀ i ∈ d.root.aliases,
    (d'.target? (ρ i)).map (Node.bare id) = (d.target? i).map (Node.bare ρ)
  failure : d'.failure = d.failure
  continues : d'.continues = d.continues

instance (d d' : Document) : Decidable (Adds ρ k n d d') :=
  decidable_of_iff _ (adds_iff ρ k n d d').symm

end Document

/-! ## Its list of nodes and its entries -/

section Parts
variable {ρ : Nat → Nat} {k : Nat} {n : Node} {d d' : Document}

theorem Node.bareAll_eq_map (items : List Node) : bareAll ρ items = items.map (bare ρ) := by
  induction items with
  | nil => rfl
  | cons n rest ih => rw [bareAll, ih, List.map_cons]

/-- Where there is a list of nodes, there is one with the node in it. -/
theorem Document.items_of_listWith {v v' : Node} {items : List Node}
    (h : ItemsOf (d.resolve v) items) (hv : v'.bare id = d.listWith ρ k n v) :
    ∃ p items', v' = .sequence p items' ∧
      Node.bareAll id items' = insertAt k (n.bare id) (Node.bareAll ρ items) := by
  have hwith : ∃ p, d.listWith ρ k n v =
      .sequence p (insertAt k (n.bare id) (Node.bareAll ρ items)) := by
    unfold listWith
    generalize d.resolve v = t at h
    cases h with
    | sequence p items => exact ⟨_, rfl⟩
    | empty hempty =>
      rw [Node.bareAll, insertAt_nil]
      cases t with
      | scalar => exact ⟨_, if_pos hempty⟩
      | sequence | mapping | reference | cut => cases hempty
  obtain ⟨p, hwith⟩ := hwith
  rw [hwith] at hv
  cases v' with
  | sequence p' items' => exact ⟨p', items', rfl, (Node.sequence.inj hv).2⟩
  | scalar | mapping | reference | cut => cases hv

/-- Where there are entries of a graph, there are those with one more node. -/
theorem Document.Adds.entries {es : List (Node × Node)} (hadds : d.Adds ρ k n d')
    (h : EntriesOf d.root es) : ∃ p es', d'.root = .mapping p es' ∧
      Node.bareEntries id es' = d.entriesWith ρ k n es := by
  have hwith : ∃ p, d.rootWith ρ k n = .mapping p (d.entriesWith ρ k n es) := by
    unfold rootWith
    generalize d.root = v at h
    cases h with
    | mapping p es => exact ⟨_, rfl⟩
    | empty hempty =>
      cases v with
      | scalar => exact ⟨_, if_pos hempty⟩
      | sequence | mapping | reference | cut => cases hempty
  obtain ⟨p, hwith⟩ := hwith
  have hroot := hadds.root
  rw [hwith] at hroot
  cases hd' : d'.root with
  | mapping p' es' =>
    rw [hd'] at hroot
    exact ⟨p', es', rfl, (Node.mapping.inj hroot).2⟩
  | scalar | sequence | reference | cut =>
    rw [hd'] at hroot
    cases hroot

/-- Where no list of nodes has come, one with the node alone comes last. -/
theorem Document.last_of_entriesWith {A : Nat → Prop} {es' : List (Node × Node)}
    (h : Node.bareEntries id es' = d.entriesWith ρ k n []) :
    ∃ key v, es' = [(key, v)] ∧ Node.Like ρ A (.scalar { mark := {} } .plain "nodes") key ∧
      v.bare id = d.listWith ρ k n (.absent {}) := by
  cases es' with
  | nil => simp [Node.bareEntries, entriesWith] at h
  | cons e rest =>
    obtain ⟨key, v⟩ := e
    rw [Node.bareEntries, entriesWith, List.cons.injEq, Prod.mk.injEq] at h
    obtain ⟨⟨hkey, hv⟩, hrest⟩ := h
    cases rest with
    | nil => exact ⟨key, v, rfl, ⟨hkey, fun _ h => absurd h List.not_mem_nil⟩, hv⟩
    | cons => simp [Node.bareEntries] at hrest

/-- An entry is that of the list of nodes, and all else is as before, or it is as before. -/
theorem Document.first_of_entriesWith {key v : Node} {es es' : List (Node × Node)}
    (h : Node.bareEntries id es' = d.entriesWith ρ k n ((key, v) :: es)) :
    ∃ key' v' rest, es' = (key', v') :: rest ∧ key'.bare id = key.bare ρ ∧
      (((d.resolve key).text? = some "nodes" ∧ v'.bare id = d.listWith ρ k n v ∧
          Node.bareEntries id rest = Node.bareEntries ρ es) ∨
        ((d.resolve key).text? ≠ some "nodes" ∧ v'.bare id = v.bare ρ ∧
          Node.bareEntries id rest = d.entriesWith ρ k n es)) := by
  rw [entriesWith] at h
  cases es' with
  | nil =>
    rw [Node.bareEntries] at h
    split at h <;> cases h
  | cons e rest =>
    obtain ⟨key', v'⟩ := e
    rw [Node.bareEntries] at h
    split at h
    · next hnodes =>
      obtain ⟨hentry, hrest⟩ := List.cons.inj h
      obtain ⟨hkey, hv⟩ := Prod.mk.inj hentry
      exact ⟨key', v', rest, rfl, hkey, .inl ⟨hnodes, hv, hrest⟩⟩
    · next hother =>
      obtain ⟨hentry, hrest⟩ := List.cons.inj h
      obtain ⟨hkey, hv⟩ := Prod.mk.inj hentry
      exact ⟨key', v', rest, rfl, hkey, .inr ⟨hother, hv, hrest⟩⟩

/-- A list with the node has an item like it. -/
theorem exists_mem_of_insertAt {items items' : List Node}
    (h : Node.bareAll id items' = insertAt k (n.bare id) (Node.bareAll ρ items)) :
    ∃ n' ∈ items', n'.bare id = n.bare id := by
  have hmem : n.bare id ∈ Node.bareAll id items' := by
    rw [h, insertAt]
    exact List.mem_append_right _ List.mem_cons_self
  rw [Node.bareAll_eq_map] at hmem
  exact List.mem_map.1 hmem

end Parts

/-! ## As many aliases may be followed -/

section Steps
variable {ρ : Nat → Nat} {k : Nat} {n : Node} {d : Document}

theorem stepsAll_append (as bs : List Node) :
    Node.stepsAll (as ++ bs) = Node.stepsAll as + Node.stepsAll bs := by
  induction as with
  | nil => rw [List.nil_append, Node.stepsAll, Nat.zero_add]
  | cons a rest ih => rw [List.cons_append, Node.stepsAll, Node.stepsAll, ih, Nat.add_assoc]

theorem stepsAll_insertAt (items : List Node) :
    Node.stepsAll (insertAt k n items) = Node.stepsAll items + n.steps := by
  have hsplit := stepsAll_append (items.take k) (items.drop k)
  rw [List.take_append_drop] at hsplit
  rw [insertAt, stepsAll_append, Node.stepsAll, hsplit]
  omega

theorem areWhole_append (as bs : List Node) :
    Node.areWhole (as ++ bs) = (Node.areWhole as && Node.areWhole bs) := by
  induction as with
  | nil => rw [List.nil_append, Node.areWhole, Bool.true_and]
  | cons a rest ih => rw [List.cons_append, Node.areWhole, Node.areWhole, ih, Bool.and_assoc]

theorem areWhole_insertAt (hn : n.isWhole = true) (items : List Node) :
    Node.areWhole (insertAt k n items) = Node.areWhole items := by
  have hsplit := areWhole_append (items.take k) (items.drop k)
  rw [List.take_append_drop] at hsplit
  rw [insertAt, areWhole_append, Node.areWhole, hn, Bool.true_and, ← hsplit]

variable (hn : n.isWhole = true) (hsteps : 0 < n.steps)

include hn hsteps

/-- A list with one more node takes more steps; what is no list is left as it is. -/
theorem Document.steps_listWith (v : Node) :
    v.steps < (d.listWith ρ k n v).steps ∨ d.listWith ρ k n v = v.bare ρ := by
  have hbare : 0 < (n.bare id).steps := by rwa [Node.steps_bare]
  have hwhole : (n.bare id).isWhole = true := by rwa [Node.isWhole_bare]
  have hone : ∀ {p items}, 1 < (Node.sequence p (insertAt k (n.bare id) items)).steps := by
    intro p items
    rw [Node.steps, stepsAll_insertAt]
    omega
  have hnew : ∀ {p}, 1 < (Node.sequence p [n.bare id]).steps := by
    intro p
    rw [Node.steps, Node.stepsAll]
    omega
  cases v with
  | sequence p items =>
    have hlist : d.listWith ρ k n (.sequence p items) = .sequence { mark := {}, tag := p.tag }
      (insertAt k (n.bare id) (Node.bareAll ρ items)) := rfl
    refine .inl ?_
    rw [hlist, Node.steps, Node.steps, stepsAll_insertAt, Node.stepsAll_bareAll, Node.isWhole,
      Node.isWhole, areWhole_insertAt hwhole, Node.areWhole_bareAll]
    omega
  | reference m i =>
    rw [Node.steps]
    unfold listWith
    split
    · exact .inl hone
    · split
      · exact .inl hnew
      · exact .inr rfl
  | scalar p style s =>
    rw [Node.steps]
    unfold listWith
    split
    · next heq => cases heq
    · split
      · exact .inl hnew
      · exact .inr rfl
  | mapping | cut => exact .inr rfl

theorem Document.steps_entriesWith (es : List (Node × Node)) :
    Node.stepsEntries es < Node.stepsEntries (d.entriesWith ρ k n es) ∨
      d.entriesWith ρ k n es = Node.bareEntries ρ es := by
  induction es with
  | nil =>
    refine .inl ?_
    rw [entriesWith, Node.stepsEntries, Node.stepsEntries, Node.steps]
    omega
  | cons e rest ih =>
    obtain ⟨key, v⟩ := e
    rw [entriesWith, Node.bareEntries]
    split
    · cases steps_listWith (ρ := ρ) (k := k) (d := d) hn hsteps v with
      | inl h =>
        refine .inl ?_
        rw [Node.stepsEntries, Node.stepsEntries, Node.steps_bare, Node.stepsEntries_bareEntries]
        omega
      | inr h => exact .inr (by rw [h])
    · cases ih with
      | inl h =>
        refine .inl ?_
        rw [Node.stepsEntries, Node.stepsEntries, Node.steps_bare, Node.steps_bare]
        omega
      | inr h => exact .inr (by rw [h])

theorem Document.steps_rootWith : d.root.steps ≤ (d.rootWith ρ k n).steps := by
  unfold rootWith
  split
  · next p es hroot =>
    rw [hroot, Node.steps, Node.steps]
    cases steps_entriesWith (ρ := ρ) (k := k) (d := d) hn hsteps es with
    | inl h =>
      split <;> omega
    | inr h =>
      apply Nat.le_of_eq
      rw [h, Node.stepsEntries_bareEntries, Node.isWhole, Node.isWhole,
        Node.entriesAreWhole_bareEntries]
  · split
    · next hempty =>
      cases hroot : d.root with
      | scalar p style s =>
        rw [Node.steps, Node.steps]
        omega
      | sequence | mapping | reference | cut =>
        rw [hroot] at hempty
        cases hempty
    · exact Nat.le_of_eq (Node.steps_bare _).symm

end Steps

/-- What is read in a document is read in the one with a node more. -/
theorem Document.Adds.serves {ρ : Nat → Nat} {k : Nat} {n : Node} {d d' : Document}
    (h : Adds ρ k n d d') (hn : n.isWhole = true) (hsteps : 0 < n.steps) :
    d.Serves ρ (· ∈ d.root.aliases) d' := by
  constructor
  case steps =>
    have hbare : (d'.root.bare id).steps = d'.root.steps := Node.steps_bare _
    rw [← hbare, h.root]
    exact steps_rootWith hn hsteps
  case targets =>
    intro i hi t ht
    have htarget := h.targets i hi
    rw [ht, Option.map_some] at htarget
    obtain ⟨t', ht', hbare⟩ := Option.map_eq_some_iff.1 htarget
    refine ⟨t', ht', hbare, ?_⟩
    exact Node.aliases_of_anchored d.root (mem_anchored_of_target? ht)

end Yaml
end NetGraph
