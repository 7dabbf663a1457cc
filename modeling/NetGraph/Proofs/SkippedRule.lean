import NetGraph.Proofs.Compilation
import NetGraph.Proofs.WellFormed

/-!
# Rules that compilation passes over

* `policyRule_eq_none_iff` : a rule is passed over if its far end is no node, a namespace without a
  name or a node of an unknown kind;
* `Edge.Joins` : an edge between a target and a far end, whichever way it is drawn;
* `missing_end_reported`, `nameless_ns_reported` : the errors in the first two cases;
* `skipped_rule_reported` : so the validator tells of every such rule but those to a node of an
  unknown kind, where it finds nothing wrong with the ends;
* `skipped_rule_unreported` : then a rule may be lost without any issue.
-/

namespace NetGraph

/-! ## What is passed over -/

theorem peer_eq_none_iff {n : Node} {policyNs : String} :
    n.peer? policyNs = none ↔ n.body = .ns "" ∨ n.body = .unknown := by
  cases hbody : n.body with
  | podGroup q => simp [peer_of_podGroup hbody]
  | ns name => simp [peer_of_ns hbody]
  | unknown => simp [Node.peer?, hbody]

theorem policyRule_eq_none_iff {g : Snapshot} {policyNs : String} {e : Edge} {far : String} :
    e.policyRule? g policyNs far = none ↔
      g.node? far = none ∨ ∃ n, g.node? far = some n ∧ (n.body = .ns "" ∨ n.body = .unknown) := by
  rw [policyRule_eq, Option.map_eq_none_iff, Snapshot.peer?]
  cases g.node? far with
  | none => simp
  | some n => simp [peer_eq_none_iff]

/-! ## What is reported of it -/

/-- The edge `e` has `target` at one end and `far` at the other. -/
inductive Edge.Joins (e : Edge) (target : String) : String → Prop where
  | incoming : e.target = target → e.Joins target e.source
  | outgoing : e.source = target → e.Joins target e.target

section Report
variable {g : Snapshot} {e : Edge}

theorem missing_end_reported (he : e ∈ g.edges) (hrule : e.kind = .rule) {target far : String}
    (hfar : e.Joins target far) (h : g.node? far = none) :
    g.HasErrorAt e.id "source" ∨ g.HasErrorAt e.id "target" := by
  have hno := Snapshot.node?_eq_none_iff.1 h
  simp only [Snapshot.hasErrorAt_iff]
  cases hfar with
  | incoming => exact .inl (.rule he hrule (.source hno))
  | outgoing => exact .inr (.rule he hrule (.target hno))

theorem nameless_ns_reported {n : Node} (hn : n ∈ g.nodes) (h : n.body = .ns "") :
    g.HasErrorAt n.id "label" := by
  have hno : ¬ IsDnsLabel "" := by
    rw [← DnsLabel.accepts_iff]
    decide
  exact Snapshot.hasErrorAt_iff.2 (.node hn (.nsName h hno))

end Report

/-! ## The rules of a target -/

/--
A rule at the target of a policy is passed over for one of three reasons. If its far end is no node,
the rule has an error at this end; if it is a namespace without a name, the namespace has one. If it
is a node of an unknown kind, nothing is found at the node, and at the rule nothing but faults of
its port entries.
-/
theorem skipped_rule_reported {g : Snapshot} {target : String} {p : Policy}
    (hp : compile target g = .ok p) {e : Edge} (he : e ∈ g.edges) (hrule : e.kind = .rule)
    {far : String} (hfar : e.Joins target far) (hskip : e.policyRule? g p.ns far = none) :
    (g.node? far = none ∧ (g.HasErrorAt e.id "source" ∨ g.HasErrorAt e.id "target")) ∨
    (∃ n, g.node? far = some n ∧ n.body = .ns "" ∧ g.HasErrorAt far "label") ∨
    ∃ n, g.node? far = some n ∧ n.body = .unknown ∧ n.findings = [] ∧
      ∀ f ∈ e.findings g, ∃ entry ∈ e.ports, ∃ fault, f = .port e entry fault := by
  rcases policyRule_eq_none_iff.1 hskip with hno | ⟨n, hn, hbody | hbody⟩
  · exact .inl ⟨hno, missing_end_reported he hrule hfar hno⟩
  · refine .inr (.inl ⟨n, hn, hbody, ?_⟩)
    rw [← Snapshot.node?_id hn]
    exact nameless_ns_reported (List.mem_of_find?_eq_some hn) hbody
  · refine .inr (.inr ⟨n, hn, hbody, by rw [Node.findings, hbody], fun f hf => ?_⟩)
    obtain ⟨t, -, ht, -⟩ := compile_eq_ok_iff.1 hp
    cases hfar with
    | incoming htarget =>
      exact Edge.port_of_mem_findings (by rw [hn]; rfl) (by rw [htarget, ht]; rfl) hf
    | outgoing hsource =>
      exact Edge.port_of_mem_findings (by rw [hsource, ht]; rfl) (by rw [hn]; rfl) hf

theorem skipped_rule_reported_busyDb :
    busyDb.HasErrorAt "d" "source" ∨ busyDb.HasErrorAt "d" "target" := by
  have hn : busyDb.node? "db" = some { id := "db", body := .podGroup dbGroup } := by decide
  have hp := compile_eq_ok_iff.2 ⟨_, dbGroup, hn, rfl, by decide, rfl⟩
  have hgone : busyDb.node? "gone" = none := by decide
  have he : busyDb.edges[3] ∈ busyDb.edges := by decide
  rcases skipped_rule_reported hp he rfl (.incoming rfl)
    (policyRule_eq_none_iff.2 (.inl hgone)) with ⟨-, h⟩ | ⟨n, hno, -⟩ | ⟨n, hno, -⟩
  · exact h
  · exact absurd (hgone.symm.trans hno) (by simp)
  · exact absurd (hgone.symm.trans hno) (by simp)

/-- A rule from a pod group to a node of an unknown kind. -/
def webToNote : Snapshot where
  nodes :=
    [{ id := "web", body := .podGroup ⟨"web", "shop", .singleton "app" "web", {}⟩ },
      { id := "note" }]
  edges := [{ id := "e", source := "web", target := "note" }]

/-- A rule is passed over, and the graph has no issue at all. -/
theorem skipped_rule_unreported :
    ∃ p, compile "web" webToNote = .ok p ∧
      ∃ e ∈ webToNote.rulesTouching "web",
        e.policyRule? webToNote p.ns e.target = none ∧ validate webToNote = [] := by
  have hn : webToNote.node? "web" = some webToNote.nodes[0] := by decide
  refine ⟨_, compile_eq_ok_iff.2 ⟨_, _, hn, rfl, by decide, rfl⟩, webToNote.edges[0], ?_⟩
  decide

end NetGraph
