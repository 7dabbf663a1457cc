import NetGraph.Yaml.Tree

/-!
# What matters of a tree

* `Node.unplaced` : a tree without the places of its nodes in the text;
* `Node.shape` : what readers see of it, without places and with one kind of quotes for all;
* `ReadsBack` : the text of a value is read back as a tree of its shape, which can be decided.
-/

namespace NetGraph.Yaml

/-! ## Trees without places -/

namespace Node

mutual

/-- The tree without the places of its nodes. -/
def unplaced : Node → Node
  | scalar p style s => scalar { p with mark := {} } style s
  | sequence p items => sequence { p with mark := {} } (unplacedAll items)
  | mapping p entries => mapping { p with mark := {} } (unplacedEntries entries)
  | reference _ anchor => reference {} anchor
  | cut => cut

def unplacedAll : List Node → List Node
  | [] => []
  | n :: rest => n.unplaced :: unplacedAll rest

def unplacedEntries : List (Node × Node) → List (Node × Node)
  | [] => []
  | (k, v) :: rest => (k.unplaced, v.unplaced) :: unplacedEntries rest

end

end Node

/-- The document without the places of its nodes. -/
def Document.unplaced (d : Document) : Document := { d with root := d.root.unplaced }

namespace Value

mutual

theorem unplaced_node : (v : Value) → v.node.unplaced = v.node
  | text s => by rw [node, Node.unplaced]
  | bool b => by rw [node, Node.unplaced]
  | nat n => by rw [node, Node.unplaced]
  | seq items => by rw [node, Node.unplaced, unplaced_nodes items]
  | map entries => by rw [node, Node.unplaced, unplaced_entryNodes entries]

theorem unplaced_nodes : (items : List Value) → Node.unplacedAll (nodes items) = nodes items
  | [] => by rw [nodes, Node.unplacedAll]
  | v :: rest => by rw [nodes, Node.unplacedAll, unplaced_node v, unplaced_nodes rest]

theorem unplaced_entryNodes : (entries : List (String × Value)) →
    Node.unplacedEntries (entryNodes entries) = entryNodes entries
  | [] => by rw [entryNodes, Node.unplacedEntries]
  | (k, v) :: rest => by
    rw [entryNodes, Node.unplacedEntries, unplaced_node v, unplaced_node (.text k),
      unplaced_entryNodes rest]

end

@[simp] theorem unplaced_document (v : Value) : v.document.unplaced = v.document := by
  rw [document, Document.unplaced, unplaced_node]

end Value

/-! ## What matters to readers -/

/-- The style with one kind of quotes for all. -/
def Style.shape : Style → Style
  | plain => plain
  | singleQuoted | doubleQuoted | literal | folded => doubleQuoted

theorem Style.shape_eq_iff {style style' : Style} :
    style.shape = style'.shape ↔ (style = .plain ↔ style' = .plain) := by
  cases style <;> cases style' <;> decide

namespace Node

mutual

/-- The tree without the places of its nodes and with one kind of quotes for all. -/
def shape : Node → Node
  | scalar p style s => scalar { p with mark := {} } style.shape s
  | sequence p items => sequence { p with mark := {} } (shapes items)
  | mapping p entries => mapping { p with mark := {} } (entryShapes entries)
  | reference _ anchor => reference {} anchor
  | cut => cut

def shapes : List Node → List Node
  | [] => []
  | n :: rest => n.shape :: shapes rest

def entryShapes : List (Node × Node) → List (Node × Node)
  | [] => []
  | (k, v) :: rest => (k.shape, v.shape) :: entryShapes rest

end

mutual

theorem shape_unplaced : (n : Node) → n.unplaced.shape = n.shape
  | scalar .. => by rw [unplaced, shape, shape]
  | sequence _ items => by rw [unplaced, shape, shape, shapes_unplacedAll items]
  | mapping _ entries => by rw [unplaced, shape, shape, entryShapes_unplacedEntries entries]
  | reference .. => by rw [unplaced, shape, shape]
  | cut => by rw [unplaced]

theorem shapes_unplacedAll : (items : List Node) → shapes (unplacedAll items) = shapes items
  | [] => by rw [unplacedAll]
  | n :: rest => by rw [unplacedAll, shapes, shapes, shape_unplaced n, shapes_unplacedAll rest]

theorem entryShapes_unplacedEntries : (entries : List (Node × Node)) →
    entryShapes (unplacedEntries entries) = entryShapes entries
  | [] => by rw [unplacedEntries]
  | (k, v) :: rest => by
    rw [unplacedEntries, entryShapes, entryShapes, shape_unplaced k, shape_unplaced v,
      entryShapes_unplacedEntries rest]

end

theorem eq_scalar_of_shape {n : Node} {style : Style} {s : String}
    (h : n.shape = (scalar { mark := {} } style s).shape) :
    ∃ m style', n = .scalar { mark := m } style' s ∧ (style' = .plain ↔ style = .plain) := by
  cases n <;> simp only [shape, scalar.injEq, Props.mk.injEq, reduceCtorEq] at h
  next p style' s' =>
    obtain ⟨⟨-, ha, ht⟩, hstyle, rfl⟩ := h
    exact ⟨p.mark, style', by rw [← ha, ← ht], Style.shape_eq_iff.1 hstyle⟩

theorem eq_sequence_of_shape {n : Node} {items : List Node}
    (h : n.shape = (sequence { mark := {} } items).shape) :
    ∃ m items', n = .sequence { mark := m } items' ∧ shapes items' = shapes items := by
  cases n <;> simp only [shape, sequence.injEq, Props.mk.injEq, reduceCtorEq] at h
  next p items' =>
    obtain ⟨⟨-, ha, ht⟩, hi⟩ := h
    exact ⟨p.mark, items', by rw [← ha, ← ht], hi⟩

theorem eq_mapping_of_shape {n : Node} {entries : List (Node × Node)}
    (h : n.shape = (mapping { mark := {} } entries).shape) :
    ∃ m entries', n = .mapping { mark := m } entries' ∧
      entryShapes entries' = entryShapes entries := by
  cases n <;> simp only [shape, mapping.injEq, Props.mk.injEq, reduceCtorEq] at h
  next p entries' =>
    obtain ⟨⟨-, ha, ht⟩, he⟩ := h
    exact ⟨p.mark, entries', by rw [← ha, ← ht], he⟩

end Node

/-- The document with the shape of its tree only. -/
def Document.shape (d : Document) : Document := { d with root := d.root.shape }

theorem Document.shape_unplaced (d : Document) : d.unplaced.shape = d.shape := by
  rw [unplaced, shape, Node.shape_unplaced, shape]

/-! ## Equality of trees -/

namespace Node

mutual

def decEq : (a b : Node) → Decidable (a = b)
  | scalar p style s, scalar p' style' s' =>
    decidable_of_iff (p = p' ∧ style = style' ∧ s = s') (by simp)
  | sequence p items, sequence p' items' =>
    have := decEqAll items items'
    decidable_of_iff (p = p' ∧ items = items') (by simp)
  | mapping p entries, mapping p' entries' =>
    have := decEqEntries entries entries'
    decidable_of_iff (p = p' ∧ entries = entries') (by simp)
  | reference m anchor, reference m' anchor' =>
    decidable_of_iff (m = m' ∧ anchor = anchor') (by simp)
  | cut, cut => isTrue rfl
  | scalar .., sequence .. | scalar .., mapping .. | scalar .., reference .. | scalar .., cut
  | sequence .., scalar .. | sequence .., mapping .. | sequence .., reference .. | sequence .., cut
  | mapping .., scalar .. | mapping .., sequence .. | mapping .., reference .. | mapping .., cut
  | reference .., scalar .. | reference .., sequence .. | reference .., mapping ..
  | reference .., cut | cut, scalar .. | cut, sequence .. | cut, mapping .. | cut, reference .. =>
    isFalse nofun

def decEqAll : (as bs : List Node) → Decidable (as = bs)
  | [], [] => isTrue rfl
  | a :: as, b :: bs =>
    have := decEq a b
    have := decEqAll as bs
    decidable_of_iff (a = b ∧ as = bs) (by simp)
  | [], _ :: _ | _ :: _, [] => isFalse nofun

def decEqEntries : (as bs : List (Node × Node)) → Decidable (as = bs)
  | [], [] => isTrue rfl
  | (k, v) :: as, (k', v') :: bs =>
    have := decEq k k'
    have := decEq v v'
    have := decEqEntries as bs
    decidable_of_iff ((k = k' ∧ v = v') ∧ as = bs) (by simp)
  | [], _ :: _ | _ :: _, [] => isFalse nofun

end

instance : DecidableEq Node := decEq

end Node

deriving instance DecidableEq for Document

/-! ## Texts that are read back -/

/--
What `parse` makes of the text of `v` is the tree of `v`, with quoted scalars told from plain ones.
-/
def ReadsBack (parse : String → Document) (v : Value) : Prop :=
  (parse v.write).shape = v.document.shape

instance (parse : String → Document) (v : Value) : Decidable (ReadsBack parse v) :=
  inferInstanceAs (Decidable (_ = _))

end NetGraph.Yaml
