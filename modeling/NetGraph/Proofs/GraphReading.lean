import NetGraph.GraphDocument.Reading
import NetGraph.Proofs.ManifestReading

/-!
# A saved graph is read back

A node is written by its kind and read as the fields of all kinds together. The two sides meet in
`NodeFields.ofNode`, the fields that are there for a node, among which its kind finds all that belongs
to it (`node_ofNode`). One lemma for each part of a graph, with the levels of collections that its
reading takes; `Snapshot.reads` is the whole and `Snapshot.read_saved` its text.
-/

namespace NetGraph
open Yaml Yaml.Reader

/-! ## Nodes -/

theorem DefaultDeny.reads (d : DefaultDeny) : Reads DefaultDeny.read 1 d.value d := by
  unfold DefaultDeny.read DefaultDeny.value
  refine Fills.record (.cons (b := { ingress := d.ingress }) ?_ (.cons ?_ (.nil _))) (by decide)
    (by simp) (by simp)
  · exact (reads_bool d.ingress).field (fun b => ({ ingress := b } : DefaultDeny)) fun _ _ =>
      if_pos rfl
  · exact (reads_bool d.egress).field (fun b => (⟨d.ingress, b⟩ : DefaultDeny)) fun _ _ =>
      if_neg (by decide)

/-- What a node's kind says, in the fields of a pod group. -/
def NodeBody.group : NodeBody → PodGroup
  | .ns name => { name }
  | .podGroup g => g
  | .unknown => {}

namespace NodeFields

/-- The fields that are there for a node. -/
def ofNode (n : Node) : NodeFields := ⟨n.id, n.parent, n.body.kindName, n.body.group⟩

theorem node_ofNode (n : Node) : (ofNode n).node = n := by
  obtain ⟨id, parent, body⟩ := n
  cases body <;> simp [ofNode, node, body, NodeBody.kindName, NodeBody.group]

/-- What the kind adds to the mapping is read into the fields of a pod group. -/
theorem fills_entries (f : NodeFields) (b : NodeBody) :
    Fills set 1 { f with group := {} } b.entries { f with group := b.group } := by
  cases b with
  | ns name =>
    refine .cons ?_ (.nil _)
    exact (reads_string name).field (fun s => ({ f with group := { name := s } } : NodeFields))
      (by simp [set])
  | podGroup g =>
    refine .cons (b := { f with group := { name := g.name } }) ?_
      (.cons (b := { f with group := { name := g.name, ns := g.ns } }) ?_
        (.cons (b := { f with group := { g with defaultDeny := {} } }) ?_ (.cons ?_ (.nil _))))
    · exact (reads_string g.name).field (fun s => ({ f with group := { name := s } } : NodeFields))
        (by simp [set])
    · exact (reads_string g.ns).field
        (fun s => ({ f with group := { name := g.name, ns := s } } : NodeFields)) (by simp [set])
    · exact g.labels.reads.field
        (fun l => ({ f with group := ⟨g.name, g.ns, l, {}⟩ } : NodeFields)) (by simp [set])
    · exact g.defaultDeny.reads.field
        (fun d => ({ f with group := { g with defaultDeny := d } } : NodeFields)) (by simp [set])
  | unknown => exact .nil _

theorem entries_sublist (b : NodeBody) :
    (b.entries.map (·.1)).Sublist ["name", "namespace", "labels", "policyConfig"] := by
  cases b <;> simp [NodeBody.entries]

end NodeFields

theorem Node.reads (n : Node) : Reads Node.read 2 n.value n := by
  have hfields : Reads (record "struct NodeRecord" (among NodeFields.names) ["id"]
      ({} : NodeFields) NodeFields.set) 2 n.value (.ofNode n) := by
    unfold Node.value
    refine Fills.record (.append (b := { id := n.id, parent := n.parent })
      (.cons (b := { id := n.id }) ?_ (.optional (fun h => by rw [h]) fun p h => ?_))
      (.cons (b := { NodeFields.ofNode n with group := {} }) ?_ (NodeFields.fills_entries _ n.body)))
      (by decide) ?_ (by simp)
    · exact (reads_string n.id).field (fun s => ({ id := s } : NodeFields)) (by simp [NodeFields.set])
    · rw [h]
      have hparent : Reads (optional string) 1 (.text p) (some p) := .optional_text (reads_string p)
      exact hparent.field (fun o => ({ id := n.id, parent := o } : NodeFields))
        (by simp [NodeFields.set])
    · exact (reads_string n.body.kindName).field (fun s => (⟨n.id, n.parent, s, {}⟩ : NodeFields))
        (by simp [NodeFields.set])
    · have hbody := NodeFields.entries_sublist n.body
      cases n.parent <;> simp [NodeFields.names, hbody]
  have hnode : Reads Node.read 2 n.value (NodeFields.ofNode n).node :=
    hfields.field NodeFields.node fun _ _ => map_eq_pure_bind ..
  rwa [NodeFields.node_ofNode] at hnode

/-! ## Edges -/

theorem EdgeKind.ofName_name (k : EdgeKind) : ofName k.name = k := by cases k <;> decide

theorem EdgeKind.reads (k : EdgeKind) {levels : Nat} :
    Reads readEdgeKind levels (.text k.name) k :=
  reads_choice (by rw [k.ofName_name])

theorem Protocol.reads (p : Protocol) {levels : Nat} :
    Reads readProtocol levels (.text p.name) p :=
  reads_choice p.ofName?_name

theorem PortEntry.reads (p : PortEntry) : Reads PortEntry.read 1 p.value p := by
  unfold PortEntry.read PortEntry.value
  refine Fills.record (.cons (b := { id := p.id }) ?_ (.cons (b := { id := p.id, port := p.port }) ?_
    (.cons ?_ (.nil _)))) (by decide) (by simp) (by simp)
  · exact (reads_string p.id).field (fun s => ({ id := s } : PortEntry)) (by simp)
  · exact (reads_string p.port).field (fun s => ({ id := p.id, port := s } : PortEntry)) (by simp)
  · exact p.protocol.reads.field (fun t => (⟨p.id, p.port, t⟩ : PortEntry)) (by simp)

theorem Edge.reads (e : Edge) : Reads Edge.read 3 e.value e := by
  have hports : Reads (sequence PortEntry.read) 2 (.seq (e.ports.map PortEntry.value)) e.ports :=
    .sequence fun p _ => p.reads
  unfold Edge.read Edge.value
  refine Fills.record (.append (b := { e with label := none })
    (.cons (b := { id := e.id }) ?_
      (.cons (b := { id := e.id, kind := e.kind }) ?_
        (.cons (b := { id := e.id, kind := e.kind, source := e.source }) ?_
          (.cons (b := ⟨e.id, e.kind, e.source, e.target, [], none⟩) ?_
            (.cons ?_ (.nil _)))))) (.optional ?_ fun l h => ?_)) (by decide) ?_ (by simp)
  · exact (reads_string e.id).field (fun s => ({ id := s } : Edge)) (by simp)
  · exact e.kind.reads.field (fun k => ({ id := e.id, kind := k } : Edge)) (by simp)
  · exact (reads_string e.source).field (fun s => ({ id := e.id, kind := e.kind, source := s } : Edge))
      (by simp)
  · exact (reads_string e.target).field (fun s => (⟨e.id, e.kind, e.source, s, [], none⟩ : Edge))
      (by simp)
  · exact hports.field (fun ps => ({ e with ports := ps, label := none } : Edge)) (by simp)
  · intro h
    rw [← h]
  · have hlabel : Reads (optional string) 2 (.text l) (some l) := .optional_text (reads_string l)
    rw [← h] at hlabel
    exact hlabel.field (fun o => ({ e with label := o } : Edge)) (by simp)
  · cases e.label <;> simp

/-! ## The graph -/

namespace Snapshot

theorem reads (g : Snapshot) : Reads read 5 g.value g := by
  have hnodes : Reads (sequence Node.read) 4 (.seq (g.nodes.map Node.value)) g.nodes :=
    (Reads.sequence fun n _ => n.reads).mono (by decide)
  have hedges : Reads (sequence Edge.read) 4 (.seq (g.edges.map Edge.value)) g.edges :=
    .sequence fun e _ => e.reads
  unfold read value
  refine Fills.record (.cons (b := { nodes := g.nodes }) ?_ (.cons ?_ (.nil _))) (by decide)
    (by simp) (by simp)
  · exact hnodes.field (fun ns => ({ nodes := ns } : Snapshot)) fun _ _ => if_pos rfl
  · exact hedges.field (fun es => (⟨g.nodes, es⟩ : Snapshot)) fun _ _ => if_neg (by decide)

/--
The text of a graph is read as this graph, if it is read back as its tree. A graph that was read from
some document, saved and read again is the same as before.
-/
theorem read_saved {parse : String → Document} {g : Snapshot} (h : ReadsBack parse g.value) :
    (parse g.render).read read = .ok g ∧
      ∀ d : Document, d.read read = .ok g → (parse g.render).read read = d.read read := by
  have hg : (parse g.render).read read = .ok g := g.reads.document (by decide) h
  refine ⟨hg, fun d hd => ?_⟩
  rw [hg, hd]

/-- Texts that are empty or spell null or a number, a node of an unknown kind and no rule. -/
def misleading : Snapshot where
  nodes := [
    { id := "1", parent := some "", body := .podGroup ⟨"null", "", .singleton "k" "~", ⟨true, false⟩⟩ },
    { id := "" }]
  edges := [{ id := "e", kind := .unknown, label := some "null" }]

theorem read_saved_misleading :
    ReadsBack Document.ofText misleading.value ∧ ofYaml misleading.render = .ok misleading := by
  have h : ReadsBack Document.ofText misleading.value := by decide +kernel
  exact ⟨h, (read_saved h).1⟩

end Snapshot
end NetGraph
