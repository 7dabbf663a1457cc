import NetGraph.Proofs.Validation

/-!
# Well-formed graphs

* `Snapshot.WellFormed` : names, labels and port texts are in their grammars, and rules join nodes;
* `Snapshot.hasErrorAt_iff` : the errors of a graph are at the fields of `Snapshot.Violates`, with at
  least one at each;
* `wellFormed_iff` : a graph is well formed iff there is no such field;
* `validate_wellFormed` : so the validator finds no error iff the graph is well formed. Nodes of an
  unknown kind and edges that are no rules have no issues.
-/

namespace NetGraph

/-! ## The rules -/

structure PodGroup.WellFormed (q : PodGroup) : Prop where
  name : IsDnsLabel q.name
  ns : IsDnsLabel q.ns
  labels : ∀ e ∈ q.labels.entries, IsLabel e.1 e.2

/-- Of a node of an unknown kind nothing is asked. -/
structure Node.WellFormed (n : Node) : Prop where
  podGroup : ∀ q, n.body = .podGroup q → q.WellFormed
  ns : ∀ name, n.body = .ns name → IsDnsLabel name

/-- Of an edge that is no rule nothing is asked. -/
structure Snapshot.WellFormed (g : Snapshot) : Prop where
  nodes : ∀ n ∈ g.nodes, n.WellFormed
  rules : ∀ e ∈ g.edges, e.kind = .rule → e.Sound g

/-- The fields of a graph that break a rule, each with the id of its element. -/
inductive Snapshot.Violates (g : Snapshot) : String → String → Prop where
  | node {n : Node} {field : String} : n ∈ g.nodes → n.Violates field → g.Violates n.id field
  | rule {e : Edge} {field : String} : e ∈ g.edges → e.kind = .rule → e.Violates g field →
      g.Violates e.id field

theorem Node.wellFormed_iff {n : Node} : n.WellFormed ↔ ∀ field, ¬ n.Violates field := by
  constructor
  · rintro ⟨hpod, hns⟩ field (⟨hq, hno⟩ | ⟨hq, hno⟩ | ⟨hq, he, hno⟩ | ⟨hname, hno⟩)
    · exact hno (hpod _ hq).name
    · exact hno (hpod _ hq).ns
    · exact hno ((hpod _ hq).labels _ he)
    · exact hno (hns _ hname)
  · intro h
    constructor
    · intro q hq
      refine ⟨?_, ?_, fun e he => ?_⟩ <;> by_contra hno
      · exact h _ (.name hq hno)
      · exact h _ (.ns hq hno)
      · exact h _ (.label hq he hno)
    · intro name hname
      by_contra hno
      exact h _ (.nsName hname hno)

theorem Snapshot.wellFormed_iff {g : Snapshot} :
    g.WellFormed ↔ ∀ id field, ¬ g.Violates id field := by
  constructor
  · rintro ⟨hnodes, hrules⟩ id field (⟨hn, hno⟩ | ⟨he, hrule, hno⟩)
    · exact Node.wellFormed_iff.1 (hnodes _ hn) field hno
    · exact Edge.sound_iff_forall.1 (hrules _ he hrule) field hno
  · intro h
    constructor
    · exact fun n hn => Node.wellFormed_iff.2 fun field hno => h n.id field (.node hn hno)
    · exact fun e he hrule =>
        Edge.sound_iff_forall.2 fun field hno => h e.id field (.rule he hrule hno)

/-! ## The errors of a graph -/

theorem Snapshot.hasErrorAt_iff {g : Snapshot} {id field : String} :
    g.HasErrorAt id field ↔ g.Violates id field := by
  rw [hasErrorAt_iff_finding]
  constructor
  · rintro ⟨f, hf, hsev, rfl, rfl⟩
    rcases mem_findings.1 hf with ⟨n, hn, hf⟩ | ⟨e, he, hf⟩
    · rw [Node.elementId_of_mem_findings hf]
      exact .node hn (Node.exists_error_iff.1 ⟨f, hf, hsev, rfl⟩)
    · rw [Edge.elementId_of_mem_findings hf]
      obtain ⟨hrule, hno⟩ := Edge.exists_error_iff.1 ⟨f, hf, hsev, rfl⟩
      exact .rule he hrule hno
  · rintro (⟨hn, hno⟩ | ⟨he, hrule, hno⟩)
    · obtain ⟨f, hf, hsev, hfield⟩ := Node.exists_error_iff.2 hno
      exact ⟨f, mem_findings.2 (.inl ⟨_, hn, hf⟩), hsev, Node.elementId_of_mem_findings hf, hfield⟩
    · obtain ⟨f, hf, hsev, hfield⟩ := Edge.exists_error_iff.2 ⟨hrule, hno⟩
      exact ⟨f, mem_findings.2 (.inr ⟨_, he, hf⟩), hsev, Edge.elementId_of_mem_findings hf, hfield⟩

theorem validate_errorFree_iff {g : Snapshot} :
    (∀ i ∈ validate g, i.isError = false) ↔ ∀ id field, ¬ g.HasErrorAt id field := by
  constructor
  · rintro h id field ⟨i, hi, herr, -⟩
    rw [h i hi] at herr
    cases herr
  · intro h i hi
    rw [← Bool.not_eq_true]
    intro herr
    obtain ⟨f, -, rfl⟩ := List.mem_map.1 hi
    exact h f.elementId f.field ⟨_, hi, herr, f.issue_elementId, f.issue_fieldKey⟩

/-- What contributes nothing may be left out. -/
theorem flatMap_filter_of_eq_nil {α β : Type} {p : α → Bool} {f : α → List β}
    (h : ∀ a, p a = false → f a = []) (as : List α) : (as.filter p).flatMap f = as.flatMap f := by
  induction as with
  | nil => rfl
  | cons a as ih =>
    rw [List.filter_cons, List.flatMap_cons, ← ih]
    split
    · rw [List.flatMap_cons]
    · next hp => rw [h a (Bool.not_eq_true _ ▸ hp), List.nil_append]

/-- Only nodes of a known kind and rules have findings. -/
theorem Snapshot.findings_filter (g : Snapshot) :
    (g.nodes.filter (·.body ≠ .unknown)).flatMap Node.findings ++
      (g.edges.filter (·.kind = .rule)).flatMap (Edge.findings g) = g.findings := by
  rw [flatMap_filter_of_eq_nil, flatMap_filter_of_eq_nil, findings]
  · intro e he
    rw [Edge.findings, Edge.isRule, he]
    exact if_neg Bool.false_ne_true
  · intro n hn
    rw [Node.findings, show n.body = .unknown by simpa using hn]

/--
The validator reports no error iff the graph is well formed. Its errors are at the fields that break
a rule, under the id of the element and the key of the field, with at least one at each. All issues
come from nodes of a known kind and from rules.
-/
theorem validate_wellFormed (g : Snapshot) :
    ((∀ i ∈ validate g, i.isError = false) ↔ g.WellFormed) ∧
    (∀ id field, (∃ i ∈ validate g, i.isError = true ∧ i.elementId = some id ∧
      i.fieldKey = some field) ↔ g.Violates id field) ∧
    validate g =
      ((g.nodes.filter (·.body ≠ .unknown)).flatMap Node.findings ++
        (g.edges.filter (·.kind = .rule)).flatMap (Edge.findings g)).map Finding.issue := by
  refine ⟨?_, fun id field => g.hasErrorAt_iff, ?_⟩
  · rw [validate_errorFree_iff, Snapshot.wellFormed_iff]
    exact forall₂_congr fun id field => not_congr g.hasErrorAt_iff
  · rw [Snapshot.findings_filter, validate]

end NetGraph
