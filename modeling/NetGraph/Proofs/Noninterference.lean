import NetGraph.Proofs.EdgeRule
import NetGraph.Proofs.Gate
import Mathlib

/-!
# What a policy depends on

* `NodeBody.SamePeer` : what a rule sees of the node at its other end;
* `Edge.SameRule` : what a policy sees of a rule;
* `Snapshot.AgreeAt` : two graphs agree on the node of a target, on the rules at it and on the nodes
  at the other ends of these. `Snapshot.AgreeAt.rulesIn` : such rules come out the same;
* `Snapshot.Unseen` : the edits of a graph that touch nothing of this. `Snapshot.Unseen.agreeAt` :
  before and after them the graphs agree;
* `compile_noninterference` : on graphs that agree at a target, and after any such edits, the answer
  for the target is the same.
-/

namespace NetGraph

/-! ## What is seen of a peer -/

/--
As the peer of a rule the two stand for the same: pod groups by their labels and their namespace,
namespaces by their name.
-/
inductive NodeBody.SamePeer : NodeBody → NodeBody → Prop where
  | ns {name : String} : SamePeer (.ns name) (.ns name)
  | podGroup {q q' : PodGroup} : q.labels = q'.labels → q.ns = q'.ns →
      SamePeer (.podGroup q) (.podGroup q')
  | unknown : SamePeer .unknown .unknown

@[simp] theorem NodeBody.SamePeer.refl (b : NodeBody) : b.SamePeer b := by
  cases b
  · exact .ns
  · exact .podGroup rfl rfl
  · exact .unknown

theorem NodeBody.SamePeer.peer_eq {n n' : Node} (h : n.body.SamePeer n'.body) (policyNs : String) :
    n.peer? policyNs = n'.peer? policyNs := by
  unfold Node.peer?
  generalize n.body = b at h ⊢
  generalize n'.body = b' at h ⊢
  cases h with
  | ns | unknown => rfl
  | podGroup hlabels hns => simp only [hlabels, hns]

/-- Under `id` neither graph has a node, or both have one and these are the same as peers. -/
def Snapshot.SamePeerAt (g g' : Snapshot) (id : String) : Prop :=
  Option.Rel NodeBody.SamePeer ((g.node? id).map Node.body) ((g'.node? id).map Node.body)

namespace Snapshot.SamePeerAt
variable {g g' : Snapshot} {id : String}

theorem of_eq (h : g'.node? id = g.node? id) : g.SamePeerAt g' id := by
  unfold SamePeerAt
  rw [h]
  cases g.node? id with
  | none => exact .none
  | some n => exact .some (.refl _)

theorem peer_eq (h : g.SamePeerAt g' id) (policyNs : String) :
    g.peer? policyNs id = g'.peer? policyNs id := by
  unfold SamePeerAt at h
  unfold peer?
  generalize g.node? id = o at h ⊢
  generalize g'.node? id = o' at h ⊢
  match o, o', h with
  | none, none, _ => rfl
  | some n, some n', .some h => exact h.peer_eq policyNs

end Snapshot.SamePeerAt

/-! ## What is seen of a rule -/

def PortEntry.content (p : PortEntry) : String × Protocol := (p.port, p.protocol)

theorem policyPorts_congr {l l' : List PortEntry}
    (h : l.map PortEntry.content = l'.map PortEntry.content) : policyPorts l = policyPorts l' := by
  -- the id of an entry is not read, so any will do
  have hread : ∀ l : List PortEntry, policyPorts l = (l.map PortEntry.content).filterMap
      fun c => PortEntry.policyPort? { id := "", port := c.1, protocol := c.2 } := by
    intro l
    rw [List.filterMap_map]
    rfl
  rw [hread l, hread l', h]

/-- The same edge but for its id, its label and the ids of its port entries. -/
structure Edge.SameRule (e e' : Edge) : Prop where
  kind : e.kind = e'.kind
  source : e.source = e'.source
  target : e.target = e'.target
  ports : e.ports.map PortEntry.content = e'.ports.map PortEntry.content

namespace Edge.SameRule
variable {e e' : Edge}

theorem refl (e : Edge) : e.SameRule e := ⟨rfl, rfl, rfl, rfl⟩

theorem near_eq (h : e.SameRule e') (d : Direction) : d.near e = d.near e' := by
  cases d
  · exact h.source
  · exact h.target

theorem far_eq (h : e.SameRule e') (d : Direction) : d.far e = d.far e' := by
  cases d
  · exact h.target
  · exact h.source

theorem touches_eq (h : e.SameRule e') (id : String) : e.touches id = e'.touches id := by
  simp only [Edge.touches, h.source, h.target]

theorem ruleIn_eq (h : e.SameRule e') {g g' : Snapshot} {target : String} {d : Direction}
    (hfar : d.near e = target → g.SamePeerAt g' (d.far e)) (policyNs : String) :
    e.ruleIn? g policyNs target d = e'.ruleIn? g' policyNs target d := by
  by_cases hgives : e.kind = .rule ∧ d.near e = target
  · obtain ⟨hrule, hnear⟩ := hgives
    rw [ruleIn_of_rule hrule hnear, ruleIn_of_rule (h.kind ▸ hrule) (h.near_eq d ▸ hnear),
      policyRule_eq, policyRule_eq, (hfar hnear).peer_eq, h.far_eq d, policyPorts_congr h.ports]
  · rw [ruleIn_eq_none (not_and.1 hgives)]
    rw [h.kind, h.near_eq d] at hgives
    rw [ruleIn_eq_none (not_and.1 hgives)]

end Edge.SameRule

/-! ## Graphs that agree at a target -/

namespace Snapshot

/--
The graphs agree on what the node `target` is, on the rules that touch it, one by one, and on what
the nodes at the other ends of these rules are as peers.
-/
structure AgreeAt (target : String) (g g' : Snapshot) : Prop where
  subject : (g.node? target).map Node.body = (g'.node? target).map Node.body
  rules : List.Forall₂ Edge.SameRule (g.rulesTouching target) (g'.rulesTouching target)
  peers : ∀ e ∈ g.rulesTouching target, ∀ d : Direction, d.near e = target →
    g.SamePeerAt g' (d.far e)

theorem rulesIn_eq_rulesTouching (g : Snapshot) (policyNs target : String) (d : Direction) :
    g.rulesIn policyNs target d =
      (g.rulesTouching target).filterMap (Edge.ruleIn? g policyNs target d) := by
  rw [rulesIn, rulesTouching, List.filterMap_filter]
  refine List.filterMap_congr fun e _ => ?_
  split
  · rfl
  · next h =>
    -- what the filter drops gives no rule, since it would have the target at its near end
    refine ruleIn_eq_none fun hrule hnear => h ?_
    rw [← hnear, d.touches_near, Edge.isRule, hrule]
    rfl

theorem filterMap_eq_of_forall₂ {α β γ : Type} {f : α → Option γ} {f' : β → Option γ} {l : List α}
    {l' : List β} (h : List.Forall₂ (fun a b => f a = f' b) l l') :
    l.filterMap f = l'.filterMap f' := by
  induction h with
  | nil => rfl
  | cons hab _ ih => rw [List.filterMap_cons, List.filterMap_cons, hab, ih]

theorem AgreeAt.rulesIn {target : String} {g g' : Snapshot} (h : AgreeAt target g g')
    (policyNs : String) (d : Direction) :
    g.rulesIn policyNs target d = g'.rulesIn policyNs target d := by
  rw [rulesIn_eq_rulesTouching, rulesIn_eq_rulesTouching]
  -- the far ends agree for the rules of `g` only, so each pair remembers where its left one is from
  have hrules := (List.forall₂_and_left _ _).2 ⟨fun _ => id, h.rules⟩
  exact filterMap_eq_of_forall₂ (hrules.imp fun e e' ⟨he, hsame⟩ =>
    hsame.ruleIn_eq (h.peers e he d) policyNs)

theorem AgreeAt.compile_eq {target : String} {g g' : Snapshot} (h : AgreeAt target g g') :
    compile target g = compile target g' :=
  compile_congr h.subject h.rulesIn

/-! ## Edits out of sight -/

/-- The nodes are the same as peers, and as the target if they have its id. -/
structure SameNode (target : String) (n n' : Node) : Prop where
  id : n.id = n'.id
  peer : n.body.SamePeer n'.body
  subject : n.id = target → n.body = n'.body

/--
One edit of a graph that leaves the policy of `target` alone: of nodes and edges in what is not seen
of them, of nodes and edges that the target has nothing to do with, or of the order of nodes whose
ids do not repeat.
-/
inductive Unseen (target : String) (g : Snapshot) : Snapshot → Prop where
  | nodes {nodes : List Node} : List.Forall₂ (SameNode target) g.nodes nodes →
      Unseen target g { g with nodes }
  | edges {edges : List Edge} : List.Forall₂ Edge.SameRule g.edges edges →
      Unseen target g { g with edges }
  | otherNode {before after : List Node} {n : Node} : g.nodes = before ++ n :: after →
      n.id ≠ target → (∀ e ∈ g.rulesTouching target, e.touches n.id = false) →
      Unseen target g { g with nodes := before ++ after }
  | otherEdge {before after : List Edge} {e : Edge} : g.edges = before ++ e :: after →
      (e.kind = .rule → e.touches target = false) →
      Unseen target g { g with edges := before ++ after }
  | order {nodes : List Node} : g.nodes.Perm nodes → (g.nodes.map (·.id)).Nodup →
      Unseen target g { g with nodes }

theorem find?_sameNode {target : String} {nodes nodes' : List Node}
    (h : List.Forall₂ (SameNode target) nodes nodes') (id : String) :
    Option.Rel (fun n n' => n.id = id ∧ SameNode target n n')
      (nodes.find? (·.id = id)) (nodes'.find? (·.id = id)) := by
  induction h with
  | nil => exact .none
  | @cons n n' _ _ hsame _ ih =>
    by_cases hid : n.id = id
    · rw [List.find?_cons_of_pos (by simpa using hid),
        List.find?_cons_of_pos (by simpa [← hsame.id] using hid)]
      exact .some ⟨hid, hsame⟩
    · rw [List.find?_cons_of_neg (by simpa using hid),
        List.find?_cons_of_neg (by simpa [← hsame.id] using hid)]
      exact ih

theorem body_eq_of_sameNode {target : String} {o o' : Option Node}
    (h : Option.Rel (fun n n' => n.id = target ∧ SameNode target n n') o o') :
    o.map Node.body = o'.map Node.body := by
  cases h with
  | none => rfl
  | some h => exact congrArg some (h.2.subject h.1)

theorem samePeer_of_sameNode {target id : String} {o o' : Option Node}
    (h : Option.Rel (fun n n' => n.id = id ∧ SameNode target n n') o o') :
    Option.Rel NodeBody.SamePeer (o.map Node.body) (o'.map Node.body) := by
  cases h with
  | none => exact .none
  | some h => exact .some h.2.peer

theorem node?_perm {g : Snapshot} {nodes : List Node} (h : g.nodes.Perm nodes)
    (hids : (g.nodes.map (·.id)).Nodup) (id : String) :
    Snapshot.node? { g with nodes } id = g.node? id := by
  have hids' : (nodes.map (·.id)).Nodup := (h.map _).nodup_iff.1 hids
  refine Option.ext fun n => ?_
  rw [node?_eq_some_iff_of_nodup (g := { g with nodes }) hids', node?_eq_some_iff_of_nodup hids,
    h.mem_iff]

theorem node?_remove {g : Snapshot} {before after : List Node} {n : Node}
    (hg : g.nodes = before ++ n :: after) {id : String} (hne : n.id ≠ id) :
    Snapshot.node? { g with nodes := before ++ after } id = g.node? id := by
  rw [node?, node?, hg, List.find?_append, List.find?_append,
    List.find?_cons_of_neg (by simpa using hne)]

theorem rulesTouching_remove {target : String} {g : Snapshot} {before after : List Edge} {e : Edge}
    (hg : g.edges = before ++ e :: after) (hfree : e.kind = .rule → e.touches target = false) :
    Snapshot.rulesTouching { g with edges := before ++ after } target =
      g.rulesTouching target := by
  have hout : (e.isRule && e.touches target) = false := by
    by_cases hrule : e.kind = .rule
    · simp [hfree hrule]
    · simp [Edge.isRule, hrule]
  simp only [rulesTouching, hg, List.filter_append, List.filter_cons, hout, Bool.false_eq_true,
    if_false]

theorem agreeAt_of_nodes {target : String} {g : Snapshot} {nodes : List Node}
    (hsubject : (g.node? target).map Node.body =
      (Snapshot.node? { g with nodes } target).map Node.body)
    (hpeers : ∀ e ∈ g.rulesTouching target, ∀ d : Direction, d.near e = target →
      g.SamePeerAt { g with nodes } (d.far e)) :
    AgreeAt target g { g with nodes } :=
  ⟨hsubject, List.forall₂_same.2 fun e _ => .refl e, hpeers⟩

theorem agreeAt_of_edges {target : String} {g : Snapshot} {edges : List Edge}
    (hrules : List.Forall₂ Edge.SameRule (g.rulesTouching target)
      (Snapshot.rulesTouching { g with edges } target)) :
    AgreeAt target g { g with edges } :=
  ⟨rfl, hrules, fun _ _ _ _ => .of_eq rfl⟩

theorem Unseen.agreeAt {target : String} {g g' : Snapshot} (h : Unseen target g g') :
    AgreeAt target g g' := by
  cases h with
  | @nodes nodes hnodes =>
    exact agreeAt_of_nodes (body_eq_of_sameNode (find?_sameNode hnodes target))
      fun e _ d _ => samePeer_of_sameNode (find?_sameNode hnodes (d.far e))
  | @edges edges hedges =>
    refine agreeAt_of_edges (List.rel_filter ?_ hedges)
    intro e e' hsame
    simp only [Edge.isRule, hsame.kind, hsame.touches_eq]
  | @otherNode before after n hg hne hfree =>
    refine agreeAt_of_nodes ?_ fun e he d hnear => .of_eq (node?_remove hg ?_)
    · rw [node?_remove hg hne]
    · intro hid
      have htouches := hfree e he
      rw [hid, d.touches_far] at htouches
      cases htouches
  | @otherEdge before after e hg hfree =>
    refine agreeAt_of_edges ?_
    rw [rulesTouching_remove hg hfree]
    exact List.forall₂_same.2 fun e _ => .refl e
  | @order nodes hperm hids =>
    exact agreeAt_of_nodes (by rw [node?_perm hperm hids])
      fun e _ d _ => .of_eq (node?_perm hperm hids _)

end Snapshot

/--
The answer for a target, be it a policy or a refusal, is the same on two graphs that agree at the
target, and on two graphs that edits out of sight lead to from one another, in any number and either
way.
-/
theorem compile_noninterference (target : String) :
    (∀ g g', Snapshot.AgreeAt target g g' → compile target g = compile target g') ∧
      ∀ g g', Relation.EqvGen (Snapshot.Unseen target) g g' →
        compile target g = compile target g' := by
  refine ⟨fun g g' h => h.compile_eq, fun g g' h => ?_⟩
  induction h with
  | rel g g' h => exact h.agreeAt.compile_eq
  | refl g => rfl
  | symm g g' _ ih => exact ih.symm
  | trans g g' g'' _ _ ih ih' => exact ih.trans ih'

/-- The graph `busyDb` with what is not seen of it for `db` drawn otherwise. -/
def redrawnDb : Snapshot where
  nodes :=
    [{ id := "db", parent := some "ns", body := .podGroup dbGroup }, { id := "note" },
      { id := "ns", body := .ns "shop" }]
  edges :=
    [{ id := "1", source := "ns", target := "db", ports := [⟨"q", "5432", .tcp⟩], label := "sql" },
      { id := "2", source := "note", target := "ns" },
      { id := "2", source := "ns", target := "db" },
      { id := "3", source := "db", target := "db" },
      { id := "4", source := "gone", target := "db" }]

theorem compile_noninterference_busyDb :
    compile "db" busyDb = compile "db" redrawnDb ∧
      compile "db" busyDb = compile "db" { busyDb with edges := busyDb.edges.take 4 } := by
  obtain ⟨hagree, hunseen⟩ := compile_noninterference "db"
  constructor
  · have hrules : busyDb.rulesTouching "db" = busyDb.edges.take 4 := by decide
    have hrules' : redrawnDb.rulesTouching "db" = redrawnDb.edges.eraseIdx 1 := by decide
    have hns : busyDb.SamePeerAt redrawnDb "ns" := .of_eq (by decide)
    have hgone : busyDb.SamePeerAt redrawnDb "gone" := .of_eq (by decide)
    have hdb : busyDb.SamePeerAt redrawnDb "db" := .some (.refl (.podGroup dbGroup))
    have hfar : ∀ e ∈ busyDb.rulesTouching "db", ∀ d ∈ Direction.all,
        d.far e = "ns" ∨ d.far e = "db" ∨ d.far e = "gone" := by decide
    refine hagree _ _ ⟨by decide, ?_, fun e he d _ => ?_⟩
    · rw [hrules, hrules']
      exact .cons ⟨rfl, rfl, rfl, rfl⟩ (.cons ⟨rfl, rfl, rfl, rfl⟩
        (.cons ⟨rfl, rfl, rfl, rfl⟩ (.cons ⟨rfl, rfl, rfl, rfl⟩ .nil)))
    · rcases hfar e he d (by cases d <;> decide) with h | h | h <;> rw [h]
      · exact hns
      · exact hdb
      · exact hgone
  · have hedges : busyDb.edges = busyDb.edges.take 4 ++ busyDb.edges[4] :: [] := by decide
    exact hunseen _ _ (.rel _ _ (.otherEdge hedges (by decide)))

end NetGraph
