import NetGraph.Proofs.TreeShape
import Mathlib.Data.List.Forall2

/-!
# Trees up to places and numbers of anchors

* `Node.bare ρ` : a tree without the places and the anchors of its nodes, in which the aliases of the
  anchor `i` are aliases of `ρ i`. It is as whole and takes as many steps (`isWhole_bare`,
  `steps_bare`);
* `Node.aliases` : the anchors that the aliases in a tree lead to. An anchored part of a tree has no
  other aliases than the tree (`aliases_of_anchored`);
* `Node.Like ρ A` : two nodes that are alike but for places and anchors, with aliases in `A`;
  `Like.top` takes them apart;
* `Document.Serves ρ A` : a document with as many steps as another one, in which the aliases in `A` lead
  to like nodes.
-/

namespace NetGraph.Yaml

namespace Node

/-! ## Bare trees -/

mutual

/-- The tree without places and anchors, with its aliases renumbered. -/
def bare (ρ : Nat → Nat) : Node → Node
  | scalar p style s => scalar { mark := {}, tag := p.tag } style s
  | sequence p items => sequence { mark := {}, tag := p.tag } (bareAll ρ items)
  | mapping p entries => mapping { mark := {}, tag := p.tag } (bareEntries ρ entries)
  | reference _ anchor => reference {} (ρ anchor)
  | cut => cut

def bareAll (ρ : Nat → Nat) : List Node → List Node
  | [] => []
  | n :: rest => n.bare ρ :: bareAll ρ rest

def bareEntries (ρ : Nat → Nat) : List (Node × Node) → List (Node × Node)
  | [] => []
  | (k, v) :: rest => (k.bare ρ, v.bare ρ) :: bareEntries ρ rest

end

section Bare
variable {ρ : Nat → Nat}

mutual

theorem isWhole_bare : (n : Node) → (n.bare ρ).isWhole = n.isWhole
  | scalar .. | reference .. | cut => by simp only [bare, isWhole]
  | sequence _ items => by rw [bare, isWhole, isWhole, areWhole_bareAll items]
  | mapping _ entries => by rw [bare, isWhole, isWhole, entriesAreWhole_bareEntries entries]

theorem areWhole_bareAll : (items : List Node) → areWhole (bareAll ρ items) = areWhole items
  | [] => by rw [bareAll]
  | n :: rest => by rw [bareAll, areWhole, areWhole, isWhole_bare n, areWhole_bareAll rest]

theorem entriesAreWhole_bareEntries : (entries : List (Node × Node)) →
    entriesAreWhole (bareEntries ρ entries) = entriesAreWhole entries
  | [] => by rw [bareEntries]
  | (k, v) :: rest => by
    rw [bareEntries, entriesAreWhole, entriesAreWhole, isWhole_bare k, isWhole_bare v,
      entriesAreWhole_bareEntries rest]

end

mutual

theorem steps_bare : (n : Node) → (n.bare ρ).steps = n.steps
  | scalar .. | reference .. | cut => by simp only [bare, steps]
  | sequence p items => by
    have hwhole : ((sequence p items).bare ρ).isWhole = (sequence p items).isWhole := isWhole_bare _
    rw [bare] at hwhole ⊢
    rw [steps, steps, stepsAll_bareAll items, hwhole]
  | mapping p entries => by
    have hwhole : ((mapping p entries).bare ρ).isWhole = (mapping p entries).isWhole := isWhole_bare _
    rw [bare] at hwhole ⊢
    rw [steps, steps, stepsEntries_bareEntries entries, hwhole]

theorem stepsAll_bareAll : (items : List Node) → stepsAll (bareAll ρ items) = stepsAll items
  | [] => by rw [bareAll]
  | n :: rest => by rw [bareAll, stepsAll, stepsAll, steps_bare n, stepsAll_bareAll rest]

theorem stepsEntries_bareEntries : (entries : List (Node × Node)) →
    stepsEntries (bareEntries ρ entries) = stepsEntries entries
  | [] => by rw [bareEntries]
  | (k, v) :: rest => by
    rw [bareEntries, stepsEntries, stepsEntries, steps_bare k, steps_bare v,
      stepsEntries_bareEntries rest]

end

end Bare

/-! ## Aliases -/

mutual

/-- The numbers of the anchors that the aliases in a tree lead to. -/
def aliases : Node → List Nat
  | scalar .. | cut => []
  | sequence _ items => aliasesAll items
  | mapping _ entries => aliasesEntries entries
  | reference _ anchor => [anchor]

def aliasesAll : List Node → List Nat
  | [] => []
  | n :: rest => n.aliases ++ aliasesAll rest

def aliasesEntries : List (Node × Node) → List Nat
  | [] => []
  | (k, v) :: rest => k.aliases ++ v.aliases ++ aliasesEntries rest

end

theorem eq_of_mem_anchorEntry {n t : Node} {p : Props} {i : Nat} (h : (i, t) ∈ n.anchorEntry p) :
    t = n := by
  unfold anchorEntry at h
  cases hp : p.anchor with
  | none => simp [hp] at h
  | some id =>
    simp only [hp, Option.map_some, Option.toList_some, List.mem_singleton, Prod.mk.injEq] at h
    exact h.2

mutual

/-- The aliases in an anchored part of a tree are aliases in the tree. -/
theorem aliases_of_anchored {i : Nat} {t : Node} : (n : Node) → (i, t) ∈ n.anchored →
    ∀ j ∈ t.aliases, j ∈ n.aliases
  | scalar p style s => by
    intro h
    rw [anchored] at h
    rw [eq_of_mem_anchorEntry h]
    exact fun _ hj => hj
  | sequence p items => by
    intro h j hj
    rw [anchored, List.mem_append] at h
    cases h with
    | inl h => rwa [eq_of_mem_anchorEntry h] at hj
    | inr h =>
      rw [aliases]
      exact aliases_of_anchoredAll items h j hj
  | mapping p entries => by
    intro h j hj
    rw [anchored, List.mem_append] at h
    cases h with
    | inl h => rwa [eq_of_mem_anchorEntry h] at hj
    | inr h =>
      rw [aliases]
      exact aliases_of_anchoredEntries entries h j hj
  | reference .. | cut => by
    intro h
    rw [anchored] at h
    exact absurd h List.not_mem_nil

theorem aliases_of_anchoredAll {i : Nat} {t : Node} : (items : List Node) →
    (i, t) ∈ anchoredAll items → ∀ j ∈ t.aliases, j ∈ aliasesAll items
  | [] => by
    intro h
    rw [anchoredAll] at h
    exact absurd h List.not_mem_nil
  | n :: rest => by
    intro h j hj
    rw [anchoredAll, List.mem_append] at h
    rw [aliasesAll, List.mem_append]
    exact h.imp (fun h => aliases_of_anchored n h j hj) fun h => aliases_of_anchoredAll rest h j hj

theorem aliases_of_anchoredEntries {i : Nat} {t : Node} : (entries : List (Node × Node)) →
    (i, t) ∈ anchoredEntries entries → ∀ j ∈ t.aliases, j ∈ aliasesEntries entries
  | [] => by
    intro h
    rw [anchoredEntries] at h
    exact absurd h List.not_mem_nil
  | (k, v) :: rest => by
    intro h j hj
    rw [anchoredEntries, List.mem_append, List.mem_append] at h
    rw [aliasesEntries, List.mem_append, List.mem_append]
    exact h.imp (Or.imp (fun h => aliases_of_anchored k h j hj)
      fun h => aliases_of_anchored v h j hj) fun h => aliases_of_anchoredEntries rest h j hj

end

/-! ## Nodes alike -/

/--
`Like ρ A n n'` : the nodes are the same but for places and anchors. The aliases of `n` are in `A`, and
`ρ` renumbers them to those of `n'`.
-/
structure Like (ρ : Nat → Nat) (A : Nat → Prop) (n n' : Node) : Prop where
  bare : n'.bare id = n.bare ρ
  aliases : ∀ i ∈ n.aliases, A i

/-- The entries of two mappings are alike. -/
def LikeEntry (ρ : Nat → Nat) (A : Nat → Prop) (e e' : Node × Node) : Prop :=
  Like ρ A e.1 e'.1 ∧ Like ρ A e.2 e'.2

/-- What `Like` says of the two nodes at hand, with `Like` for their parts. -/
inductive LikeTop (ρ : Nat → Nat) (A : Nat → Prop) : Node → Node → Prop where
  | scalar {p p' : Props} {style : Style} {s : String} :
      p'.tag = p.tag → LikeTop ρ A (.scalar p style s) (.scalar p' style s)
  | sequence {p p' : Props} {items items' : List Node} :
      List.Forall₂ (Like ρ A) items items' → LikeTop ρ A (.sequence p items) (.sequence p' items')
  | mapping {p p' : Props} {entries entries' : List (Node × Node)} :
      List.Forall₂ (LikeEntry ρ A) entries entries' →
      LikeTop ρ A (.mapping p entries) (.mapping p' entries')
  | reference {m m' : Mark} {i : Nat} : A i → LikeTop ρ A (.reference m i) (.reference m' (ρ i))
  | cut : LikeTop ρ A .cut .cut

section Like
variable {ρ : Nat → Nat} {A : Nat → Prop} {n n' : Node}

theorem forall₂_like {items items' : List Node} (h : bareAll id items' = bareAll ρ items)
    (hA : ∀ i ∈ aliasesAll items, A i) : List.Forall₂ (Like ρ A) items items' := by
  induction items generalizing items' with
  | nil =>
    cases items' with
    | nil => exact .nil
    | cons => simp [bareAll] at h
  | cons m rest ih =>
    cases items' with
    | nil => simp [bareAll] at h
    | cons m' rest' =>
      rw [bareAll, bareAll, List.cons.injEq] at h
      rw [aliasesAll, List.forall_mem_append] at hA
      exact .cons ⟨h.1, hA.1⟩ (ih h.2 hA.2)

theorem forall₂_likeEntry {es es' : List (Node × Node)} (h : bareEntries id es' = bareEntries ρ es)
    (hA : ∀ i ∈ aliasesEntries es, A i) : List.Forall₂ (LikeEntry ρ A) es es' := by
  induction es generalizing es' with
  | nil =>
    cases es' with
    | nil => exact .nil
    | cons => simp [bareEntries] at h
  | cons e rest ih =>
    cases es' with
    | nil => simp [bareEntries] at h
    | cons e' rest' =>
      rw [bareEntries, bareEntries, List.cons.injEq, Prod.mk.injEq] at h
      rw [aliasesEntries, List.forall_mem_append, List.forall_mem_append] at hA
      exact .cons ⟨⟨h.1.1, hA.1.1⟩, h.1.2, hA.1.2⟩ (ih h.2 hA.2)

theorem Like.top (h : Like ρ A n n') : LikeTop ρ A n n' := by
  obtain ⟨h, hA⟩ := h
  cases n with
  | scalar =>
    cases n' <;> simp only [Node.bare, scalar.injEq, Props.mk.injEq, reduceCtorEq] at h
    obtain ⟨⟨-, -, htag⟩, rfl, rfl⟩ := h
    exact .scalar htag
  | sequence =>
    cases n' <;> simp only [Node.bare, sequence.injEq, reduceCtorEq] at h
    rw [Node.aliases] at hA
    exact .sequence (forall₂_like h.2 hA)
  | mapping =>
    cases n' <;> simp only [Node.bare, mapping.injEq, reduceCtorEq] at h
    rw [Node.aliases] at hA
    exact .mapping (forall₂_likeEntry h.2 hA)
  | reference =>
    cases n' <;> simp only [Node.bare, reference.injEq, true_and, id_eq, reduceCtorEq] at h
    subst h
    exact .reference (hA _ (by rw [Node.aliases]; exact List.mem_singleton_self _))
  | cut =>
    cases n' <;> simp only [Node.bare, reduceCtorEq] at h
    exact .cut

theorem Like.isWhole_eq (h : Like ρ A n n') : n'.isWhole = n.isWhole := by
  have hwhole : (n'.bare id).isWhole = n'.isWhole := isWhole_bare n'
  rw [← hwhole, h.bare, isWhole_bare]

end Like
end Node

/--
`Serves ρ A d d'` : as many aliases may be followed in `d'` as in `d`, and what those in `A` lead to in
`d` is led to by their numbers under `ρ` in `d'`.
-/
structure Document.Serves (ρ : Nat → Nat) (A : Nat → Prop) (d d' : Document) : Prop where
  steps : d.root.steps ≤ d'.root.steps
  targets : ∀ i, A i → ∀ n, d.target? i = some n →
    ∃ n', d'.target? (ρ i) = some n' ∧ Node.Like ρ A n n'

theorem Document.mem_anchored_of_target? {d : Document} {i : Nat} {n : Node}
    (h : d.target? i = some n) : (i, n) ∈ d.root.anchored := by
  obtain ⟨before, after, hsplit, -⟩ := List.lookup_eq_some_iff.1 h
  have hmem : (i, n) ∈ d.root.anchored.reverse := by
    rw [hsplit]
    exact List.mem_append_right before List.mem_cons_self
  exact List.mem_reverse.1 hmem

/-- A document serves itself. -/
theorem Document.serves_self (d : Document) : Serves id (fun _ => True) d d :=
  ⟨Nat.le_refl _, fun _ _ n h => ⟨n, h, rfl, fun _ _ => trivial⟩⟩

end NetGraph.Yaml
