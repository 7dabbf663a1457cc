import NetGraph.Proofs.EdgeRule
import Mathlib

/-!
# The two ends of a connection have matching rules

Traffic passes if the sender's egress and the receiver's ingress both allow it, and these are rules
of two policies.

* `Snapshot.rulesByEdge` : the rules of a direction, each beside the edge that gives it;
* `Snapshot.rulesBetween` : the rules that are drawn from one id to another, and `Snapshot.share`,
  what these give to a direction. `Snapshot.share_eq_map` : where each of them gives a rule, this is
  one rule for each, in their order;
* `RuleMatch` : an egress rule of one pod group and an ingress rule of another that allow the same
  traffic between the two;
* `ends_match` : what is drawn from one pod group to another gives such rules to the two policies,
  pair by pair.
-/

namespace NetGraph

/-! ## Rules beside their edges -/

namespace Snapshot

/-- The rules of a direction in the order of the edges, each beside the edge that gives it. -/
def rulesByEdge (g : Snapshot) (policyNs target : String) (d : Direction) :
    List (Edge × PolicyRule) :=
  g.edges.filterMap fun e => (e.ruleIn? g policyNs target d).map (e, ·)

theorem rulesByEdge_map_snd (g : Snapshot) (policyNs target : String) (d : Direction) :
    (g.rulesByEdge policyNs target d).map Prod.snd = g.rulesIn policyNs target d := by
  simp [rulesByEdge, rulesIn, List.map_filterMap, Function.comp_def]

end Snapshot

def Edge.runs (a b : String) (e : Edge) : Bool := e.source = a && e.target = b

theorem Edge.runs_iff {a b : String} {e : Edge} :
    e.runs a b = true ↔ e.source = a ∧ e.target = b := by
  simp [Edge.runs]

/-- The rules that are drawn from `a` to `b`, in order. -/
def Snapshot.rulesBetween (g : Snapshot) (a b : String) : List Edge :=
  g.edges.filter fun e => e.isRule && e.runs a b

namespace Snapshot

/-- The rules of a direction that come from the edges between `a` and `b`, each beside its edge. -/
def share (g : Snapshot) (policyNs target : String) (d : Direction) (a b : String) :
    List (Edge × PolicyRule) :=
  (g.rulesByEdge policyNs target d).filter (·.1.runs a b)

theorem share_eq_map {g : Snapshot} {policyNs target a b : String} {d : Direction}
    {rule : Edge → PolicyRule}
    (h : ∀ e, e.kind = .rule → e.runs a b = true →
      e.ruleIn? g policyNs target d = some (rule e)) :
    g.share policyNs target d a b = (g.rulesBetween a b).map fun e => (e, rule e) := by
  rw [share, rulesByEdge, rulesBetween, List.filter_filterMap, ← List.filterMap_eq_map,
    List.filterMap_filter]
  -- between `a` and `b` only rules give something, and what other edges give is not in the share
  refine List.filterMap_congr fun e _ => ?_
  by_cases hruns : e.runs a b = true
  · by_cases hrule : e.kind = .rule
    · simp [h e hrule hruns, hruns, Edge.isRule, hrule]
    · rw [ruleIn_eq_none fun hkind => absurd hkind hrule]
      simp [Edge.isRule, hrule]
  · cases e.ruleIn? g policyNs target d <;> simp [hruns]

end Snapshot

/-! ## Rules that match -/

/-- The selector of namespaces that a policy in `policyNs` needs for pods in `ns`. -/
def nsSelectorFrom (policyNs ns : String) : Option Labels :=
  if policyNs = ns then none else some (nsSelector ns)

/--
The egress rule `out` of the pod group `a` and the ingress rule `inn` of the pod group `b` allow the
same ports. Each selects the other group's pods by their labels, and their namespace by its name iff
the two groups are in different ones.
-/
structure RuleMatch (a b : PodGroup) (out inn : PolicyRule) : Prop where
  ports : out.ports = inn.ports
  receiver : out.peers = [⟨some b.labels, nsSelectorFrom a.ns b.ns⟩]
  sender : inn.peers = [⟨some a.labels, nsSelectorFrom b.ns a.ns⟩]

theorem usablePeer_of_podGroup {g : Snapshot} {id : String} {n : Node} {q : PodGroup}
    (hn : g.node? id = some n) (hq : n.body = .podGroup q) (hns : q.ns ≠ "") (policyNs : String) :
    UsablePeer g policyNs id ⟨some q.labels, nsSelectorFrom policyNs q.ns⟩ := by
  unfold nsSelectorFrom
  split
  · next h => exact .podsHere hn hq (.inr h.symm)
  · next h => exact .podsElsewhere hn hq hns (Ne.symm h)

theorem share_of_podGroup {g : Snapshot} {policyNs target other a b : String} {d : Direction}
    (hends : ∀ e : Edge, e.runs a b = true → d.near e = target ∧ d.far e = other) {n : Node}
    {q : PodGroup} (hn : g.node? other = some n) (hq : n.body = .podGroup q) (hns : q.ns ≠ "") :
    g.share policyNs target d a b = (g.rulesBetween a b).map fun e =>
      (e, ⟨[⟨some q.labels, nsSelectorFrom policyNs q.ns⟩], policyPorts e.ports⟩) := by
  refine Snapshot.share_eq_map fun e hrule hruns => ?_
  obtain ⟨hnear, hfar⟩ := hends e hruns
  have hpeer := usablePeer_of_podGroup ((congrArg g.node? hfar).trans hn) hq hns policyNs
  exact ruleIn_eq_some_iff.2 ⟨hrule, hnear, _, hpeer, rfl⟩

/--
Let `a` and `b` be two ids, or one, that have policies. The rules drawn from `a` to `b` each give
one rule to the egress of `a` and one to the ingress of `b`, in their order, and the two match.
-/
theorem ends_match {g : Snapshot} {a b : String} {pa pb : Policy} (ha : compile a g = .ok pa)
    (hb : compile b g = .ok pb) :
    ∃ qa qb,
      (g.node? a).bind Node.podGroup? = some qa ∧ (g.node? b).bind Node.podGroup? = some qb ∧
      (g.rulesByEdge pa.ns a .egress).map Prod.snd = pa.rules .egress ∧
      (g.rulesByEdge pb.ns b .ingress).map Prod.snd = pb.rules .ingress ∧
      (g.share pa.ns a .egress a b).map Prod.fst = g.rulesBetween a b ∧
      (g.share pb.ns b .ingress a b).map Prod.fst = g.rulesBetween a b ∧
      List.Forall₂ (fun out inn => RuleMatch qa qb out.2 inn.2)
        (g.share pa.ns a .egress a b) (g.share pb.ns b .ingress a b) := by
  rw [rules_of_compile ha, rules_of_compile hb]
  obtain ⟨na, qa, hna, hqa, hnsa, rfl⟩ := compile_eq_ok_iff.1 ha
  obtain ⟨nb, qb, hnb, hqb, hnsb, rfl⟩ := compile_eq_ok_iff.1 hb
  have hout : g.share qa.ns a .egress a b = _ :=
    share_of_podGroup (a := a) (b := b) (d := .egress) (fun _ h => Edge.runs_iff.1 h)
      hnb hqb hnsb
  have hinn : g.share qb.ns b .ingress a b = _ :=
    share_of_podGroup (a := a) (b := b) (d := .ingress) (fun _ h => (Edge.runs_iff.1 h).symm)
      hna hqa hnsa
  refine ⟨qa, qb, ?_, ?_, g.rulesByEdge_map_snd _ _ _, g.rulesByEdge_map_snd _ _ _, ?_, ?_, ?_⟩
  · rw [hna, Option.bind_some, podGroup_eq_some_iff.2 hqa]
  · rw [hnb, Option.bind_some, podGroup_eq_some_iff.2 hqb]
  · change (g.share qa.ns a .egress a b).map Prod.fst = _
    rw [hout, List.map_map]
    exact List.map_id _
  · change (g.share qb.ns b .ingress a b).map Prod.fst = _
    rw [hinn, List.map_map]
    exact List.map_id _
  · change List.Forall₂ _ (g.share qa.ns a .egress a b) (g.share qb.ns b .ingress a b)
    rw [hout, hinn, List.forall₂_map_left_iff, List.forall₂_map_right_iff, List.forall₂_same]
    exact fun e _ => ⟨rfl, rfl, rfl⟩

/-- Two rules from `web` to `db` in another namespace, among edges that are none. -/
def webBesideDb : Snapshot where
  nodes :=
    [{ id := "web", body := .podGroup ⟨"web", "front", .singleton "app" "web", {}⟩ },
      { id := "db", body := .podGroup dbGroup }]
  edges :=
    [{ id := "a", source := "web", target := "db", ports := [⟨"p", "5432", .tcp⟩] },
      { id := "b", source := "db", target := "web" },
      { id := "c", source := "web", target := "web" },
      { id := "d", kind := .unknown, source := "web", target := "db" },
      { id := "e", source := "web", target := "db" }]

theorem ends_match_webBesideDb :
    (webBesideDb.rulesBetween "web" "db").map (·.id) = ["a", "e"] ∧
      ∃ pa pb qa qb, compile "web" webBesideDb = .ok pa ∧ compile "db" webBesideDb = .ok pb ∧
        List.Forall₂ (fun out inn => RuleMatch qa qb out.2 inn.2)
          (webBesideDb.share pa.ns "web" .egress "web" "db")
          (webBesideDb.share pb.ns "db" .ingress "web" "db") := by
  have hweb : webBesideDb.node? "web" = some webBesideDb.nodes[0] := by decide
  have hdb : webBesideDb.node? "db" = some webBesideDb.nodes[1] := by decide
  have ha := compile_eq_ok_iff.2 ⟨_, _, hweb, rfl, by decide, rfl⟩
  have hb := compile_eq_ok_iff.2 ⟨_, _, hdb, rfl, by decide, rfl⟩
  obtain ⟨qa, qb, -, -, -, -, -, -, hmatch⟩ := ends_match ha hb
  exact ⟨by decide, _, _, qa, qb, ha, hb, hmatch⟩

end NetGraph
