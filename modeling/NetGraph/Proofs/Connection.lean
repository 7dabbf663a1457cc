import NetGraph.Proofs.Operation
import NetGraph.Proofs.Store
import NetGraph.Proofs.Validation

/-!
# Edges of a drawn graph join what may be joined

* `Snapshot.connection_eq_ok_iff` : two ids may be joined iff they differ and are those of two nodes
  whose kinds are as `Connection.Allows` says;
* `Snapshot.Retains` : from one graph to the next, an id keeps a node of the same kind.
  `Snapshot.Retains.connection` : ids that are retained may still be joined;
* `Snapshot.WellDrawn` : no two nodes bear one id, and every edge joins what may be joined;
* `Operation.KeepsEnds` : the operations that draw, delete or edit, where an edit leaves a node its
  id and its kind and an edge its ends. `Snapshot.WellDrawn.yields` : they keep a graph well drawn;
* `Store.drawn_wellDrawn` : so every store that they lead to holds such a graph, and the validator
  misses no end of an edge in it.
-/

namespace NetGraph

/-! ## What may be joined -/

/-- `kind.Allows source target` : a rule from `source` to `target` is one of the kind `kind`. -/
inductive Connection.Allows : Connection → NodeBody → NodeBody → Prop where
  | podToPod {q r : PodGroup} : podToPod.Allows (.podGroup q) (.podGroup r)
  | egressToNs {q : PodGroup} {name : String} : egressToNs.Allows (.podGroup q) (.ns name)
  | ingressFromNs {name : String} {q : PodGroup} : ingressFromNs.Allows (.ns name) (.podGroup q)

theorem Connection.between_eq_ok_iff {kind : Connection} {source target : NodeBody} :
    between source target = .ok kind ↔ kind.Allows source target := by
  constructor
  · intro h
    cases source <;> cases target <;> cases h <;> constructor
  · intro h
    cases h <;> rfl

theorem Snapshot.connection_eq_ok_iff {g : Snapshot} {source target : String} {kind : Connection} :
    g.connection? source target = .ok kind ↔
      ∃ m n, g.node? source = some m ∧ g.node? target = some n ∧ source ≠ target ∧
        kind.Allows m.body n.body := by
  unfold connection?
  cases hs : g.node? source with
  | none => exact iff_of_false (fun h => nomatch h) (by simp)
  | some m =>
    cases ht : g.node? target with
    | none => exact iff_of_false (fun h => nomatch h) (by simp)
    | some n =>
      by_cases heq : source = target
      · subst heq
        simp only [if_true]
        exact iff_of_false (fun h => nomatch h) (by simp)
      · simp [heq, Connection.between_eq_ok_iff]

/-! ## The kind of a node -/

/-- Two nodes stand for something of one kind. -/
inductive NodeBody.SameKind : NodeBody → NodeBody → Prop where
  | ns {name name' : String} : SameKind (.ns name) (.ns name')
  | podGroup {q q' : PodGroup} : SameKind (.podGroup q) (.podGroup q')
  | unknown : SameKind .unknown .unknown

@[simp] theorem NodeBody.SameKind.refl (b : NodeBody) : b.SameKind b := by
  cases b <;> constructor

theorem Connection.Allows.of_sameKind {kind : Connection} {b b' c c' : NodeBody}
    (h : kind.Allows b c) (hb : b.SameKind b') (hc : c.SameKind c') : kind.Allows b' c' := by
  cases h <;> cases hb <;> cases hc <;> constructor

namespace Snapshot

/-- A node that `id` has in `g` it still has in `next`, maybe edited but of the same kind. -/
def Retains (g next : Snapshot) (id : String) : Prop :=
  ∀ n, g.node? id = some n → ∃ n', next.node? id = some n' ∧ n.body.SameKind n'.body

theorem Retains.of_eq {g next : Snapshot} {id : String} (h : next.node? id = g.node? id) :
    g.Retains next id :=
  fun n hn => ⟨n, h.trans hn, .refl _⟩

theorem Retains.connection {g next : Snapshot} {source target : String} {kind : Connection}
    (hs : g.Retains next source) (ht : g.Retains next target)
    (h : g.connection? source target = .ok kind) : next.connection? source target = .ok kind := by
  obtain ⟨m, n, hm, hn, hne, hjoins⟩ := connection_eq_ok_iff.1 h
  obtain ⟨m', hm', hkind⟩ := hs m hm
  obtain ⟨n', hn', hkind'⟩ := ht n hn
  exact connection_eq_ok_iff.2 ⟨m', n', hm', hn', hne, hjoins.of_sameKind hkind hkind'⟩

/-! ## What an operation leaves of a look-up -/

section Lookup
variable {g : Snapshot}

theorem node?_split {before after : List Node} {n : Node} (hg : g.nodes = before ++ n :: after)
    (hfirst : ∀ m ∈ before, m.id ≠ n.id) : g.node? n.id = some n :=
  List.find?_eq_some_iff_append.2 ⟨by simp, before, after, hg, by simpa using hfirst⟩

theorem edge?_split {before after : List Edge} {e : Edge} (hg : g.edges = before ++ e :: after)
    (hfirst : ∀ f ∈ before, f.id ≠ e.id) : g.edge? e.id = some e :=
  List.find?_eq_some_iff_append.2 ⟨by simp, before, after, hg, by simpa using hfirst⟩

theorem retains_append (nodes : List Node) (id : String) :
    g.Retains { g with nodes := g.nodes ++ nodes } id := by
  intro n hn
  refine ⟨n, ?_, .refl _⟩
  rw [node?] at hn ⊢
  rw [List.find?_append, hn, Option.some_or]

/-- An edit that keeps a node's id neither hides nor uncovers another node. -/
theorem retains_edit {before after : List Node} {n n' : Node}
    (hg : g.nodes = before ++ n :: after) (hid : n'.id = n.id) (hkind : n.body.SameKind n'.body)
    (id : String) : g.Retains { g with nodes := before ++ n' :: after } id := by
  intro m hm
  rw [node?, hg, List.find?_append, Option.or_eq_some_iff] at hm
  simp only [node?, List.find?_append, Option.or_eq_some_iff]
  rcases hm with hm | ⟨hnone, hm⟩
  · exact ⟨m, .inl hm, .refl _⟩
  · by_cases hn : n.id = id
    · rw [List.find?_cons_of_pos (by simpa using hn)] at hm
      obtain rfl := Option.some.inj hm
      exact ⟨n', .inr ⟨hnone, List.find?_cons_of_pos (by simpa [hid] using hn)⟩, hkind⟩
    · rw [List.find?_cons_of_neg (by simpa using hn)] at hm
      refine ⟨m, .inr ⟨hnone, ?_⟩, .refl _⟩
      rwa [List.find?_cons_of_neg (by simpa [hid] using hn)]

/-- An id that is not among those that go keeps its node. -/
theorem retains_delete {nodes edges : List String} {id : String} (h : id ∉ g.doomed nodes) :
    g.Retains (g.delete nodes edges) id := by
  refine .of_eq ?_
  rw [node?, node?, delete, List.find?_filter]
  congr 1
  funext n
  by_cases hn : n.id = id
  · simp [hn, h]
  · simp [hn]

end Lookup

/-! ## Well-drawn graphs -/

/-- No two nodes bear one id, and every edge joins two nodes between which it may be drawn. -/
structure WellDrawn (g : Snapshot) : Prop where
  ids : (g.nodes.map (·.id)).Nodup
  joined : ∀ e ∈ g.edges, ∃ kind, g.connection? e.source e.target = .ok kind

theorem wellDrawn_empty : WellDrawn {} := ⟨.nil, by simp⟩

end Snapshot

/-- On the graph `g`, the operation leaves a node its id and kind, and an edge its ends. -/
inductive Operation.KeepsEnds (g : Snapshot) : Operation → Prop where
  | addNode (n : Node) : KeepsEnds g (.addNode n)
  | updateNode {id : String} {edit : Node → Node} :
      (∀ n, g.node? id = some n → (edit n).id = n.id ∧ n.body.SameKind (edit n).body) →
      KeepsEnds g (.updateNode id edit)
  | updateEdge {id : String} {edit : Edge → Edge} :
      (∀ e, g.edge? id = some e → (edit e).source = e.source ∧ (edit e).target = e.target) →
      KeepsEnds g (.updateEdge id edit)
  | connect (id source target : String) : KeepsEnds g (.connect id source target)
  | delete (nodes edges : List String) : KeepsEnds g (.delete nodes edges)

namespace Snapshot.WellDrawn

/-- The edges of a well-drawn graph whose ends are retained are still joined. -/
theorem joined_of_retains {g next : Snapshot} (h : g.WellDrawn) {e : Edge} (he : e ∈ g.edges)
    (hs : g.Retains next e.source) (ht : g.Retains next e.target) :
    ∃ kind, next.connection? e.source e.target = .ok kind := by
  obtain ⟨kind, hkind⟩ := h.joined e he
  exact ⟨kind, hs.connection ht hkind⟩

theorem yields {g next : Snapshot} {op : Operation} (h : g.WellDrawn) (hkeeps : op.KeepsEnds g)
    (hop : op.Yields g next) : next.WellDrawn := by
  cases hop with
  | @addNode n hnew =>
    refine ⟨?_, fun e he => h.joined_of_retains he (retains_append _ _) (retains_append _ _)⟩
    rw [List.map_append, List.nodup_append]
    refine ⟨h.ids, List.nodup_singleton _, ?_⟩
    simpa using hnew
  | @updateNode edit before after n hg hfirst =>
    cases hkeeps with
    | updateNode hkeeps =>
      -- the edited node is the one that a look-up finds, of which `hkeeps` speaks
      obtain ⟨hid, hkind⟩ := hkeeps n (node?_split hg hfirst)
      refine ⟨?_, fun e he => h.joined_of_retains he (retains_edit hg hid hkind _)
        (retains_edit hg hid hkind _)⟩
      have hids := h.ids
      rw [hg] at hids
      simpa [hid] using hids
  | @updateEdge edit before after e hg hfirst =>
    cases hkeeps with
    | updateEdge hkeeps =>
      -- the nodes are as before, so the ends of the edited edge decide
      obtain ⟨hsource, htarget⟩ := hkeeps e (edge?_split hg hfirst)
      have hjoined := h.joined
      rw [hg, List.forall_mem_append, List.forall_mem_cons] at hjoined
      obtain ⟨hbefore, he, hafter⟩ := hjoined
      refine ⟨h.ids, ?_⟩
      rw [List.forall_mem_append, List.forall_mem_cons, hsource, htarget]
      exact ⟨hbefore, he, hafter⟩
  | @connect id source target kind label hkind =>
    refine ⟨h.ids, ?_⟩
    rw [List.forall_mem_append, List.forall_mem_singleton]
    exact ⟨h.joined, kind, hkind⟩
  | @delete nodes edges =>
    -- an edge stays only if neither of its ends goes
    refine ⟨h.ids.sublist (List.filter_sublist.map _), fun e he => ?_⟩
    simp only [Snapshot.delete, List.mem_filter, Bool.and_eq_true, decide_eq_true_eq] at he
    obtain ⟨he, ⟨-, hs⟩, ht⟩ := he
    exact h.joined_of_retains he (retains_delete hs) (retains_delete ht)
  | replace => cases hkeeps

end Snapshot.WellDrawn

/-! ## Ends that are missing -/

theorem PodGroupFault.head_field (fault : PodGroupFault) :
    fault.field.toList.head? = some 'm' ∨ fault.field.toList.head? = some 'l' := by
  cases fault with
  | name | ns | noLabels => simp [field]
  | blankKey k | key k _ | value k _ =>
    right
    change (("labels.\"" ++ k) ++ "\"").toList.head? = some 'l'
    simp

theorem head_portField (p : PortEntry) : (portField p).toList.head? = some 'p' := by
  change (("ports[" ++ p.id) ++ "].port").toList.head? = some 'p'
  simp

/-- No field but an end of an edge is called `source` or `target`. -/
theorem Finding.missing_of_fieldKey {f : Finding}
    (h : f.issue.fieldKey = some "source" ∨ f.issue.fieldKey = some "target") :
    ∃ e, f = .missingSource e ∨ f = .missingTarget e := by
  cases f with
  | podGroup n fault =>
    have hhead := fault.head_field
    rcases h with h | h <;> rw [show fault.field = _ from Option.some.inj h] at hhead <;>
      exact absurd hhead (by decide)
  | nsName n fault =>
    change some "label" = some "source" ∨ some "label" = some "target" at h
    exact absurd h (by decide)
  | missingSource e => exact ⟨e, .inl rfl⟩
  | missingTarget e => exact ⟨e, .inr rfl⟩
  | port e p fault =>
    have hhead := head_portField p
    rcases h with h | h <;> rw [show portField p = _ from Option.some.inj h] at hhead <;>
      exact absurd hhead (by decide)

theorem Snapshot.WellDrawn.not_missing {g : Snapshot} (h : g.WellDrawn) {f : Finding}
    (hf : f ∈ g.findings) (e : Edge) : f ≠ .missingSource e ∧ f ≠ .missingTarget e := by
  rcases Snapshot.mem_findings.1 hf with ⟨n, -, hf⟩ | ⟨e', he', hf⟩
  · obtain ⟨q, -, fault, -, rfl⟩ | ⟨name, -, fault, -, rfl⟩ := Node.mem_findings.1 hf <;> simp
  · obtain ⟨kind, hkind⟩ := h.joined e' he'
    obtain ⟨m, n, hm, hn, -⟩ := Snapshot.connection_eq_ok_iff.1 hkind
    obtain ⟨p, -, fault, rfl⟩ :=
      Edge.port_of_mem_findings (by rw [hm]; rfl) (by rw [hn]; rfl) hf
    simp

theorem Snapshot.WellDrawn.fieldKey_ne {g : Snapshot} (h : g.WellDrawn) {i : Issue}
    (hi : i ∈ validate g) : i.fieldKey ≠ some "source" ∧ i.fieldKey ≠ some "target" := by
  obtain ⟨f, hf, rfl⟩ := List.mem_map.1 hi
  rw [← not_or]
  intro hkey
  obtain ⟨e, rfl | rfl⟩ := Finding.missing_of_fieldKey hkey
  · exact (h.not_missing hf e).1 rfl
  · exact (h.not_missing hf e).2 rfl

/-! ## Stores -/

/-- A store that operations of `Operation.KeepsEnds` lead to from the empty one. -/
inductive Store.Drawn : Store → Prop where
  | empty : Drawn (ofSnapshot {})
  | step {s : Store} {op : Operation} : s.Drawn → op.KeepsEnds s.snapshot → Drawn (s.perform op).1

namespace Store

theorem perform_wellDrawn {s : Store} {op : Operation} (h : s.snapshot.WellDrawn)
    (hkeeps : op.KeepsEnds s.snapshot) : (s.perform op).1.snapshot.WellDrawn := by
  obtain ⟨g, reply, happly, hp⟩ | ⟨e, -, hp⟩ := perform_cases s op
  · rw [hp, commit_snapshot]
    exact h.yields hkeeps (Operation.yields_of_apply happly)
  · rwa [hp]

/--
Whatever is drawn, deleted and edited from the empty graph on, as long as edits leave a node its id
and its kind and an edge its ends, no two nodes bear one id, every edge joins two nodes that may be
joined, and the validator reports no end of an edge as missing.
-/
theorem drawn_wellDrawn {s : Store} (h : s.Drawn) :
    s.snapshot.WellDrawn ∧ ∀ i ∈ validate s.snapshot,
      i.fieldKey ≠ some "source" ∧ i.fieldKey ≠ some "target" := by
  have hdrawn : s.snapshot.WellDrawn := by
    induction h with
    | empty => exact Snapshot.wellDrawn_empty
    | step _ hkeeps ih => exact perform_wellDrawn ih hkeeps
  exact ⟨hdrawn, fun i hi => hdrawn.fieldKey_ne hi⟩

/-- A run in which an id comes back for a node of another kind. -/
def redrawing : List Operation :=
  [.addNode { id := "web", body := .podGroup {} }, .addNode { id := "db", body := .podGroup {} },
    .connect "e" "web" "db", .updateEdge "e" ({ · with label := none }), .delete ["db"] [],
    .addNode { id := "db", body := .ns "db" },
    .updateNode "web" ({ · with parent := some "db" }), .connect "f" "db" "web"]

theorem drawn_wellDrawn_redrawing :
    ((ofSnapshot {}).run redrawing).snapshot.edges.map (·.id) = ["f"] ∧
      ((ofSnapshot {}).run redrawing).snapshot.WellDrawn := by
  have hdrawn : Drawn ((ofSnapshot {}).run redrawing) :=
    .step (.step (.step (.step (.step (.step (.step (.step .empty
      (.addNode _)) (.addNode _)) (.connect _ _ _)) (.updateEdge fun _ _ => ⟨rfl, rfl⟩))
      (.delete _ _)) (.addNode _)) (.updateNode fun _ _ => ⟨rfl, .refl _⟩)) (.connect _ _ _)
  exact ⟨by decide +kernel, (drawn_wellDrawn hdrawn).1⟩

end Store
end NetGraph
