import NetGraph.Proofs.Compilation

/-!
# The rules of a policy by directions and edges

Ingress and egress are one thing seen from the two ends of an edge. Here they are a parameter.

* `Direction.near`, `Direction.far` : the end of an edge at the governed pods, and the other one;
* `Edge.ruleIn?` : the rule that one edge gives in one direction, `ruleIn_eq_some_iff`;
* `Snapshot.rulesIn` : the rules of all edges, which the two passes compute (`ingressRules_eq`,
  `egressRules_eq`);
* `Policy.written`, `Policy.rules` : the section of a direction, and the rules in it;
* `rules_of_compile` : what is in the sections of a compiled policy;
* `compile_congr` : a policy depends on nothing but the node of its target and these rules.
-/

namespace NetGraph

/-! ## The two ends of an edge -/

namespace Direction

/-- The end of an edge that a policy with a rule of this direction governs. -/
def near : Direction → Edge → String
  | egress => Edge.source
  | ingress => Edge.target

/-- The end of an edge that is the peer in a rule of this direction. -/
def far : Direction → Edge → String
  | egress => Edge.target
  | ingress => Edge.source

theorem near_of_ne : ∀ {d d' : Direction}, d' ≠ d → d'.near = d.far
  | egress, ingress, _ => rfl
  | ingress, egress, _ => rfl
  | egress, egress, h => absurd rfl h
  | ingress, ingress, h => absurd rfl h

theorem touches_near (d : Direction) (e : Edge) : e.touches (d.near e) = true := by
  cases d <;> simp [near, Edge.touches]

theorem touches_far (d : Direction) (e : Edge) : e.touches (d.far e) = true := by
  cases d <;> simp [far, Edge.touches]

end Direction

/-! ## The rule of an edge -/

/-- The rule that `e` gives in the direction `d` of the policy that `target` has in `policyNs`. -/
def Edge.ruleIn? (g : Snapshot) (policyNs target : String) (d : Direction) (e : Edge) :
    Option PolicyRule :=
  if e.isRule && d.near e = target then e.policyRule? g policyNs (d.far e) else none

section EdgeRule
variable {g : Snapshot} {policyNs target : String} {d : Direction} {e : Edge}

theorem ruleIn_of_rule (hrule : e.kind = .rule) (hnear : d.near e = target) :
    e.ruleIn? g policyNs target d = e.policyRule? g policyNs (d.far e) := by
  simp [Edge.ruleIn?, Edge.isRule, hrule, hnear]

theorem ruleIn_eq_none (h : e.kind = .rule → d.near e ≠ target) :
    e.ruleIn? g policyNs target d = none := by
  by_cases hrule : e.kind = .rule
  · simp [Edge.ruleIn?, h hrule]
  · simp [Edge.ruleIn?, Edge.isRule, hrule]

theorem policyRule_eq_some_iff {far : String} {r : PolicyRule} :
    e.policyRule? g policyNs far = some r ↔
      ∃ peer, UsablePeer g policyNs far peer ∧ r = ⟨[peer], policyPorts e.ports⟩ := by
  simp only [policyRule_eq, Option.map_eq_some_iff, peer_eq_some_iff, eq_comm (b := r)]

theorem ruleIn_eq_some_iff {r : PolicyRule} :
    e.ruleIn? g policyNs target d = some r ↔
      e.kind = .rule ∧ d.near e = target ∧
        ∃ peer, UsablePeer g policyNs (d.far e) peer ∧ r = ⟨[peer], policyPorts e.ports⟩ := by
  by_cases h : e.kind = .rule ∧ d.near e = target
  · rw [ruleIn_of_rule h.1 h.2, policyRule_eq_some_iff]
    simp [h.1, h.2]
  · rw [ruleIn_eq_none (not_and.1 h)]
    refine iff_of_false (fun hr => nomatch hr) ?_
    rintro ⟨hrule, hnear, -⟩
    exact h ⟨hrule, hnear⟩

end EdgeRule

/-! ## The rules of a direction -/

/-- The rules of a direction: what the edges give, in their order. -/
def Snapshot.rulesIn (g : Snapshot) (policyNs target : String) (d : Direction) : List PolicyRule :=
  g.edges.filterMap (Edge.ruleIn? g policyNs target d)

theorem ingressRules_eq (g : Snapshot) (target policyNs : String) :
    ingressRules g target policyNs = g.rulesIn policyNs target .ingress :=
  List.filterMap_filter

theorem egressRules_eq (g : Snapshot) (target policyNs : String) :
    egressRules g target policyNs = g.rulesIn policyNs target .egress :=
  List.filterMap_filter

def DefaultDeny.denies (s : DefaultDeny) : Direction → Bool
  | .egress => s.egress
  | .ingress => s.ingress

namespace Policy

/-- The section of a direction, if it is written out. -/
def written (p : Policy) : Direction → Option (List PolicyRule)
  | .egress => p.egress
  | .ingress => p.ingress

/-- The rules of a direction; none if it is not written out. -/
def rules (p : Policy) (d : Direction) : List PolicyRule := (p.written d).getD []

end Policy

theorem getD_section (rules : List PolicyRule) (denied : Bool) :
    (section? rules denied).getD [] = rules := by
  unfold section?
  split
  · rfl
  · next h =>
    have hnil : rules = [] := by
      rw [Bool.not_eq_true, Bool.or_eq_false_iff] at h
      simpa using h.1
    exact hnil.symm

theorem written_policy (g : Snapshot) (id : String) (q : PodGroup) (d : Direction) :
    (q.policy g id).written d = section? (g.rulesIn q.ns id d) (q.defaultDeny.denies d) := by
  cases d with
  | egress => exact congrArg (section? · _) (egressRules_eq g id q.ns)
  | ingress => exact congrArg (section? · _) (ingressRules_eq g id q.ns)

theorem rules_policy (g : Snapshot) (target : String) (q : PodGroup) (d : Direction) :
    (q.policy g target).rules d = g.rulesIn q.ns target d := by
  rw [Policy.rules, written_policy, getD_section]

theorem policy_congr {g g' : Snapshot} {id : String} {q : PodGroup}
    (h : ∀ d, g.rulesIn q.ns id d = g'.rulesIn q.ns id d) : q.policy g id = q.policy g' id := by
  simp only [PodGroup.policy, ingressRules_eq, egressRules_eq, h]

theorem compile_congr {g g' : Snapshot} {id : String}
    (hbody : (g.node? id).map Node.body = (g'.node? id).map Node.body)
    (hrules : ∀ policyNs d, g.rulesIn policyNs id d = g'.rulesIn policyNs id d) :
    compile id g = compile id g' := by
  cases hn : g.node? id with
  | none =>
    rw [hn, Option.map_none, eq_comm, Option.map_eq_none_iff] at hbody
    rw [compile_of_node_eq_none hn, compile_of_node_eq_none hbody]
  | some n =>
    rw [hn, Option.map_some, eq_comm, Option.map_eq_some_iff] at hbody
    obtain ⟨n', hn', hbody⟩ := hbody
    cases hq : n.podGroup? with
    | none =>
      have hq' : n'.podGroup? = none := by rw [← hq, Node.podGroup?, Node.podGroup?, hbody]
      rw [compile_of_not_podGroup hn hq, compile_of_not_podGroup hn' hq']
    | some q =>
      have hq := podGroup_eq_some_iff.1 hq
      -- the refusal shows the node's name, which falls back to the id that both were found under
      have hname : n.displayName = n'.displayName := by
        simp only [Node.displayName, Node.name, hbody, Snapshot.node?_id hn, Snapshot.node?_id hn']
      rw [compile_of_podGroup hn hq, compile_of_podGroup hn' (hbody.trans hq), hname,
        policy_congr (hrules q.ns)]

theorem rules_of_compile {g : Snapshot} {target : String} {p : Policy}
    (hp : compile target g = .ok p) (d : Direction) : p.rules d = g.rulesIn p.ns target d := by
  obtain ⟨n, q, -, -, -, rfl⟩ := compile_eq_ok_iff.1 hp
  exact rules_policy g target q d

theorem edge_of_mem_rules {g : Snapshot} {target : String} {p : Policy}
    (hp : compile target g = .ok p) {d : Direction} {r : PolicyRule} (hr : r ∈ p.rules d) :
    ∃ e ∈ g.edges, e.kind = .rule ∧ d.near e = target ∧
      ∃ peer, UsablePeer g p.ns (d.far e) peer ∧ r = ⟨[peer], policyPorts e.ports⟩ := by
  rw [rules_of_compile hp, Snapshot.rulesIn, List.mem_filterMap] at hr
  obtain ⟨e, he, hrule⟩ := hr
  exact ⟨e, he, ruleIn_eq_some_iff.1 hrule⟩

end NetGraph
