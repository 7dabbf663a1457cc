import NetGraph.Proofs.Connection
import NetGraph.Proofs.EdgeRule
import NetGraph.Proofs.SkippedRule

/-!
# What drawing a rule does to the policies

* `Snapshot.addEdge`, `rulesIn_addEdge` : an edge that comes last adds what it gives at the end;
* `Policy.Gains` : a policy gains one rule in one direction, and nothing else of it changes;
* `RuleAdded` : what a new rule means for the policy at one of its ends;
* `connect_compiles` : drawing a rule adds one rule to the policies of its two ends, egress at the
  source and ingress at the target, and leaves all others alone. A namespace without a name gives
  no rule, and is reported.
-/

namespace NetGraph

/-! ## An edge that comes last -/

def Snapshot.addEdge (g : Snapshot) (e : Edge) : Snapshot := { g with edges := g.edges ++ [e] }

section AddEdge
variable {g : Snapshot} {e : Edge}

theorem rulesIn_addEdge (policyNs id : String) (d : Direction) :
    (g.addEdge e).rulesIn policyNs id d =
      g.rulesIn policyNs id d ++ (e.ruleIn? g policyNs id d).toList := by
  change (g.edges ++ [e]).filterMap (Edge.ruleIn? g policyNs id d) = _
  rw [List.filterMap_append, Snapshot.rulesIn]
  cases h : e.ruleIn? g policyNs id d <;> simp [h]

theorem rulesIn_addEdge_of_none {policyNs id : String} {d : Direction}
    (h : e.ruleIn? g policyNs id d = none) :
    (g.addEdge e).rulesIn policyNs id d = g.rulesIn policyNs id d := by
  rw [rulesIn_addEdge, h, Option.toList_none, List.append_nil]

theorem rulesIn_addEdge_of_some {policyNs id : String} {d : Direction} {r : PolicyRule}
    (h : e.ruleIn? g policyNs id d = some r) :
    (g.addEdge e).rulesIn policyNs id d = g.rulesIn policyNs id d ++ [r] := by
  rw [rulesIn_addEdge, h, Option.toList_some]

theorem compile_addEdge_of_none {id : String} (h : ∀ policyNs d, e.ruleIn? g policyNs id d = none) :
    compile id (g.addEdge e) = compile id g :=
  compile_congr rfl fun policyNs d => rulesIn_addEdge_of_none (h policyNs d)

theorem compile_addEdge_of_error {id : String} {r : Refusal} (h : compile id g = .error r) :
    compile id (g.addEdge e) = .error r := by
  -- why a target is refused does not depend on edges, and the nodes are the same
  refine compile_eq_error_iff.2 ?_
  cases compile_eq_error_iff.1 h with
  | targetNotFound hn => exact .targetNotFound hn
  | notAPodGroup hn hq => exact .notAPodGroup hn hq
  | missingNs hn hq hns => exact .missingNs hn hq hns

end AddEdge

/-! ## Policies -/

/-- There is a policy for `id`: its node is a pod group with a namespace. -/
def Snapshot.HasPolicy (g : Snapshot) (id : String) : Prop :=
  ∃ n q, g.node? id = some n ∧ n.body = .podGroup q ∧ q.ns ≠ ""

/-- The node of `id` is a namespace without a name. -/
def Snapshot.NamelessNs (g : Snapshot) (id : String) : Prop :=
  ∃ n, g.node? id = some n ∧ n.body = .ns ""

theorem compile_of_not_hasPolicy {g : Snapshot} {id : String} (h : ¬ g.HasPolicy id) :
    ∃ r, compile id g = .error r := by
  cases hp : compile id g with
  | error r => exact ⟨r, rfl⟩
  | ok p =>
    obtain ⟨n, q, hn, hq, hns, -⟩ := compile_eq_ok_iff.1 hp
    exact absurd ⟨n, q, hn, hq, hns⟩ h

/--
`p.Gains d r p'` : the policy `p'` is `p` with the rule `r` as the last one of the direction `d`,
which is now written out if it was not. The other direction, the name, the namespace and the
selected pods are the same.
-/
structure Policy.Gains (d : Direction) (r : PolicyRule) (p p' : Policy) : Prop where
  gained : p'.written d = some (p.rules d ++ [r])
  other : ∀ d', d' ≠ d → p'.written d' = p.written d'
  directions : p'.directions = Direction.all.filter fun d' => d' = d || d' ∈ p.directions
  rest : p' = { p with directions := p'.directions, ingress := p'.ingress, egress := p'.egress }

theorem directions_policy (g : Snapshot) (id : String) (q : PodGroup) :
    (q.policy g id).directions =
      Direction.all.filter fun d => ((q.policy g id).written d).isSome := by
  simp only [Direction.all, Policy.written, PodGroup.policy, directionsOf]
  generalize section? (ingressRules g id q.ns) q.defaultDeny.ingress = ingress
  generalize section? (egressRules g id q.ns) q.defaultDeny.egress = egress
  cases ingress <;> cases egress <;> rfl

theorem gains_policy {g next : Snapshot} {id : String} {q : PodGroup} {d : Direction}
    {r : PolicyRule} (hd : next.rulesIn q.ns id d = g.rulesIn q.ns id d ++ [r])
    (hother : ∀ d', d' ≠ d → next.rulesIn q.ns id d' = g.rulesIn q.ns id d') :
    (q.policy g id).Gains d r (q.policy next id) := by
  have hgained : (q.policy next id).written d = some ((q.policy g id).rules d ++ [r]) := by
    rw [written_policy, hd, rules_policy, section?, if_pos (by simp)]
  have hrest : ∀ d', d' ≠ d → (q.policy next id).written d' = (q.policy g id).written d' := by
    intro d' hne
    rw [written_policy, written_policy, hother d' hne]
  refine ⟨hgained, hrest, ?_, rfl⟩
  rw [directions_policy next, directions_policy g]
  refine List.filter_congr fun d' hd' => ?_
  by_cases hne : d' = d
  · subst hne
    simp [hgained]
  · rw [hrest d' hne]
    simp [hne, hd']

/-! ## The two ends of a new rule -/

theorem usablePeer_of_body {g : Snapshot} {id : String} {n : Node} (hn : g.node? id = some n)
    (hkind : n.body ≠ .unknown) (hname : n.body ≠ .ns "") (policyNs : String) :
    ∃ peer, UsablePeer g policyNs id peer := by
  cases hp : n.peer? policyNs with
  | none => exact absurd (peer_eq_none_iff.1 hp) (not_or.2 ⟨hname, hkind⟩)
  | some peer =>
    refine ⟨peer, peer_eq_some_iff.1 ?_⟩
    rw [Snapshot.peer?, hn, Option.bind_some, hp]

theorem Connection.Allows.not_unknown {kind : Connection} {b c : NodeBody} (h : kind.Allows b c) :
    b ≠ .unknown ∧ c ≠ .unknown := by
  cases h <;> exact ⟨NodeBody.noConfusion, NodeBody.noConfusion⟩

/--
What a rule that is new in `next` does to the policy of `near`, its end that a rule of the direction
`d` governs. The policy gains one rule on every port, the last of its direction, with the other end
as the peer. A namespace without a name gives no rule, and has an error. Where there was no policy,
there is none now.
-/
structure RuleAdded (g next : Snapshot) (d : Direction) (near far : String) : Prop where
  gains : g.HasPolicy near → ¬ g.NamelessNs far →
    ∃ p p' peer, compile near g = .ok p ∧ UsablePeer g p.ns far peer ∧
      compile near next = .ok p' ∧ p.Gains d ⟨[peer], []⟩ p'
  nameless : g.NamelessNs far → compile near next = compile near g ∧ next.HasErrorAt far "label"
  refused : ¬ g.HasPolicy near → compile near next = compile near g

section RuleAdded
variable {g : Snapshot} {e : Edge} {d : Direction}

theorem ruleIn_eq_none_of_namelessNs (h : g.NamelessNs (d.far e)) (policyNs : String) :
    e.ruleIn? g policyNs (d.near e) d = none := by
  obtain ⟨n, hn, hbody⟩ := h
  by_cases hrule : e.kind = .rule
  · rw [ruleIn_of_rule hrule rfl, policyRule_eq_none_iff]
    exact .inr ⟨n, hn, .inl hbody⟩
  · exact ruleIn_eq_none fun h => absurd h hrule

theorem ruleIn_eq_none_of_ne {d' : Direction} (hends : d.near e ≠ d.far e) (hne : d' ≠ d)
    (policyNs : String) : e.ruleIn? g policyNs (d.near e) d' = none := by
  -- near in the other direction is the far end, and that is the near one only for a loop
  refine ruleIn_eq_none fun _ h => hends ?_
  rw [← h, Direction.near_of_ne hne]

theorem ruleAdded_addEdge (hrule : e.kind = .rule) (hports : e.ports = [])
    (hends : d.near e ≠ d.far e) {n : Node} (hfar : g.node? (d.far e) = some n)
    (hkind : n.body ≠ .unknown) : RuleAdded g (g.addEdge e) d (d.near e) (d.far e) where
  gains := by
    rintro ⟨m, q, hm, hq, hns⟩ hnamed
    have hname : n.body ≠ .ns "" := fun hbody => hnamed ⟨n, hfar, hbody⟩
    obtain ⟨peer, hpeer⟩ := usablePeer_of_body hfar hkind hname q.ns
    have hgiven : e.ruleIn? g q.ns (d.near e) d = some ⟨[peer], []⟩ :=
      ruleIn_eq_some_iff.2 ⟨hrule, rfl, peer, hpeer, by rw [hports]; rfl⟩
    have hother : ∀ d', d' ≠ d →
        (g.addEdge e).rulesIn q.ns (d.near e) d' = g.rulesIn q.ns (d.near e) d' :=
      fun d' hne => rulesIn_addEdge_of_none (ruleIn_eq_none_of_ne hends hne q.ns)
    exact ⟨_, _, peer, compile_eq_ok_iff.2 ⟨m, q, hm, hq, hns, rfl⟩, hpeer,
      compile_eq_ok_iff.2 ⟨m, q, hm, hq, hns, rfl⟩,
      gains_policy (rulesIn_addEdge_of_some hgiven) hother⟩
  nameless := by
    intro hnameless
    constructor
    · refine compile_addEdge_of_none fun policyNs d' => ?_
      by_cases hne : d' = d
      · subst hne
        exact ruleIn_eq_none_of_namelessNs hnameless policyNs
      · exact ruleIn_eq_none_of_ne hends hne policyNs
    · obtain ⟨n', hn', hbody⟩ := hnameless
      rw [← Snapshot.node?_id hn']
      exact nameless_ns_reported (g := g.addEdge e) (List.mem_of_find?_eq_some hn') hbody
  refused := by
    intro hno
    obtain ⟨r, hr⟩ := compile_of_not_hasPolicy hno
    rw [hr, compile_addEdge_of_error hr]

end RuleAdded

/-! ## Drawing -/

theorem Snapshot.drawn_of_connection {g : Snapshot} {source target : String} {kind : Connection}
    (h : g.connection? source target = .ok kind) (id : String) :
    ∃ label, g.drawn? id source target = .ok (kind, { id, source, target, label }) := by
  rw [drawn?, h]
  exact ⟨_, rfl⟩

/--
Where a rule from `source` to `target` may be drawn, drawing it adds an edge without ports, and one
rule on every port to the policies of its ends: egress to the target at the source, and ingress from
the source at the target. No other policy changes. Only an end that is a namespace without a name
gives the other end no rule, and then the validator reports it.
-/
theorem connect_compiles {g : Snapshot} {source target : String} {kind : Connection}
    (h : g.connection? source target = .ok kind) (id : String) :
    ∃ next, (Operation.connect id source target).apply g = .ok (next, .drawn id) ∧
      (∃ label, next = { g with edges := g.edges ++ [{ id, source, target, label }] }) ∧
      RuleAdded g next .egress source target ∧ RuleAdded g next .ingress target source ∧
      ∀ other, other ≠ source → other ≠ target → compile other next = compile other g := by
  obtain ⟨label, hdrawn⟩ := Snapshot.drawn_of_connection h id
  obtain ⟨m, n, hm, hn, hne, hallows⟩ := Snapshot.connection_eq_ok_iff.1 h
  let e : Edge := { id, source, target, label }
  refine ⟨g.addEdge e, ?_, ⟨label, rfl⟩, ?_, ?_, ?_⟩
  · simp only [Operation.apply, hdrawn]
    rfl
  · exact ruleAdded_addEdge (e := e) (d := .egress) rfl rfl hne hn hallows.not_unknown.2
  · exact ruleAdded_addEdge (e := e) (d := .ingress) rfl rfl hne.symm hm hallows.not_unknown.1
  -- at any other id the new edge is near in neither direction
  · intro other hsource htarget
    refine compile_addEdge_of_none fun policyNs d => ruleIn_eq_none fun _ => ?_
    cases d with
    | egress => exact hsource.symm
    | ingress => exact htarget.symm

theorem connect_compiles_busyDb :
    ∃ next p p', (Operation.connect "f" "db" "ns").apply busyDb = .ok (next, .drawn "f") ∧
      compile "db" busyDb = .ok p ∧ compile "db" next = .ok p' ∧
      p.Gains .egress ⟨[⟨none, some (nsSelector "shop")⟩], []⟩ p' := by
  have hn : busyDb.node? "db" = some { id := "db", body := .podGroup dbGroup } := by decide
  have hns : busyDb.node? "ns" = some { id := "ns", body := .ns "shop" } := by decide
  have hkind : busyDb.connection? "db" "ns" = .ok .egressToNs := by decide
  obtain ⟨next, happly, -, hadded, -⟩ := connect_compiles hkind "f"
  have hnamed : ¬ busyDb.NamelessNs "ns" := by
    rintro ⟨n, hno, hbody⟩
    obtain rfl := Option.some.inj (hns.symm.trans hno)
    exact absurd (NodeBody.ns.inj hbody) (by decide)
  have hhas : busyDb.HasPolicy "db" := ⟨_, dbGroup, hn, rfl, by decide⟩
  obtain ⟨p, p', peer, hp, hpeer, hp', hgains⟩ := hadded.gains hhas hnamed
  have hfound : busyDb.peer? p.ns "ns" = some ⟨none, some (nsSelector "shop")⟩ := by
    rw [Snapshot.peer?, hns]
    rfl
  rw [← peer_eq_some_iff, hfound] at hpeer
  exact ⟨next, p, p', happly, hp, hp', Option.some.inj hpeer ▸ hgains⟩

end NetGraph
