import NetGraph.Proofs.EdgeRule
import NetGraph.Proofs.PortClass
import NetGraph.Proofs.PortEntry

/-!
# Ports that are said to have no effect

The validator warns of a port beside ICMP or ANY that it has no effect. To see whether it has one,
the word for every port is put in its place.

* `Edge.setPort`, `Snapshot.setEdge` : a port entry, and so its edge, is written anew in its place;
* `compile_setEdge_eq_iff` : this is all the same to a policy iff the edge gives it the same rules;
* `PortEntry.policyPort_eq_none_iff` : an entry with such a protocol is left out of a manifest, but
  for ANY with a number or a name;
* `ignored_port_effect` : so the warning is right, except where a rule with such an entry is in the
  policy, which the port then restricts (`ignored_port_enforced`).
-/

namespace NetGraph

/-! ## One element of a list -/

theorem filterMap_set_eq_iff {α β : Type} {f : α → Option β} {l : List α} {i : Nat} {a : α}
    (ha : l[i]? = some a) (b : α) : (l.set i b).filterMap f = l.filterMap f ↔ f b = f a := by
  obtain ⟨hi, rfl⟩ := List.getElem?_eq_some_iff.1 ha
  have hcons : ∀ x, (l.take i ++ x :: l.drop (i + 1)).filterMap f =
      (l.take i).filterMap f ++ ((f x).toList ++ (l.drop (i + 1)).filterMap f) := by
    intro x
    rw [List.filterMap_append, List.filterMap_cons]
    cases f x <;> rfl
  have hl : l.take i ++ l[i] :: l.drop (i + 1) = l := by
    rw [List.getElem_cons_drop, List.take_append_drop]
  rw [List.set_eq_take_append_cons_drop, if_pos hi, hcons]
  nth_rewrite 3 [← hl]
  rw [hcons, List.append_cancel_left_eq, List.append_cancel_right_eq]
  cases f b <;> cases f l[i] <;> simp

/-! ## An entry written anew -/

/-- The edge with `p` as its port entry number `j`, from zero on. -/
def Edge.setPort (e : Edge) (j : Nat) (p : PortEntry) : Edge :=
  { e with ports := e.ports.set j p }

/-- The graph with `e` as its edge number `i`, from zero on. -/
def Snapshot.setEdge (g : Snapshot) (i : Nat) (e : Edge) : Snapshot :=
  { g with edges := g.edges.set i e }

section Policies
variable {g : Snapshot} {target : String}

/-- Graphs with the same nodes have the same policy iff it has the same rules. -/
theorem compile_eq_iff_of_nodes {g' : Snapshot} (hnodes : g'.nodes = g.nodes) :
    compile target g' = compile target g ↔
      ∀ p, compile target g = .ok p →
        ∀ d, g'.rulesIn p.ns target d = g.rulesIn p.ns target d := by
  have hnode : g'.node? target = g.node? target := by rw [Snapshot.node?, Snapshot.node?, hnodes]
  constructor
  · intro heq p hp d
    rw [← rules_of_compile hp d, ← rules_of_compile (heq.trans hp) d]
  · intro hrules
    rcases node_cases g target with hn | ⟨n, hn, hq⟩ | ⟨n, q, hn, hq⟩
    · rw [compile_of_node_eq_none hn, compile_of_node_eq_none (hnode.trans hn)]
    · rw [compile_of_not_podGroup hn hq, compile_of_not_podGroup (hnode.trans hn) hq]
    · have hp := compile_of_podGroup hn hq
      rw [compile_of_podGroup (hnode.trans hn) hq, hp]
      split
      · rfl
      · next hns =>
        rw [if_neg hns] at hp
        rw [policy_congr (hrules _ hp)]

theorem compile_setEdge_eq_iff {i : Nat} {e : Edge} (he : g.edges[i]? = some e) (e' : Edge) :
    compile target (g.setEdge i e') = compile target g ↔
      ∀ p, compile target g = .ok p →
        ∀ d, e'.ruleIn? g p.ns target d = e.ruleIn? g p.ns target d := by
  have hnodes : (g.setEdge i e').nodes = g.nodes := rfl
  rw [compile_eq_iff_of_nodes hnodes]
  -- an edge finds its peers among the nodes, which are those of `g`
  exact forall₃_congr fun p _ d => filterMap_set_eq_iff he e'

theorem policyPorts_set_eq_iff {ports : List PortEntry} {j : Nat} {p : PortEntry}
    (hp : ports[j]? = some p) (p' : PortEntry) :
    policyPorts (ports.set j p') = policyPorts ports ↔ p'.policyPort? = p.policyPort? :=
  filterMap_set_eq_iff hp p'

theorem ruleIn_setPort_eq_iff {e : Edge} {j : Nat} {p : PortEntry} (hrule : e.kind = .rule)
    (hp : e.ports[j]? = some p) (p' : PortEntry) (policyNs : String) (d : Direction) :
    (e.setPort j p').ruleIn? g policyNs target d = e.ruleIn? g policyNs target d ↔
      (d.near e = target → ∀ peer, UsablePeer g policyNs (d.far e) peer →
        p'.policyPort? = p.policyPort?) := by
  have hnear : d.near (e.setPort j p') = d.near e := by cases d <;> rfl
  have hfar : d.far (e.setPort j p') = d.far e := by cases d <;> rfl
  have hrule' : (e.setPort j p').kind = .rule := hrule
  by_cases htarget : d.near e = target
  · rw [ruleIn_of_rule hrule htarget, ruleIn_of_rule hrule' (hnear.trans htarget), policyRule_eq,
      policyRule_eq, hfar, ← policyPorts_set_eq_iff hp]
    simp only [← peer_eq_some_iff, htarget, true_imp_iff]
    cases g.peer? policyNs (d.far e) with
    | none => simp
    | some peer => simp [Edge.setPort]
  · rw [ruleIn_eq_none fun _ => htarget, ruleIn_eq_none fun _ => hnear ▸ htarget]
    simp [htarget]

end Policies

/-! ## Entries without a protocol -/

theorem Protocol.transport_of_ignoresPort {p : Protocol} (h : p.ignoresPort = true) :
    p.transport? = none := by
  cases p <;> first | rfl | cases h

theorem portValue_classify_eq_some_iff {v : String} {x : PortValue} :
    (PortSyntax.classify v).portValue? v = some (some x) ↔ AsksFor v (some x) := by
  constructor
  · intro h
    have hread := PortSyntax.classify_isReading v
    generalize PortSyntax.classify v = s at h hread
    cases hread with
    | number hdec hlo =>
      obtain rfl := Option.some.inj (Option.some.inj h)
      exact .number hdec hlo
    | named hword hname =>
      obtain rfl := Option.some.inj (Option.some.inj h)
      exact .name hword hname
    | _ => cases h
  · rintro (_ | ⟨hdec, hlo⟩ | ⟨hword, hname⟩)
    · rw [PortSyntax.IsReading.classify_eq (.number hdec hlo)]
      rfl
    · rw [PortSyntax.IsReading.classify_eq (.named hword hname)]
      rfl

namespace PortEntry

theorem policyPort_eq_none_iff {p : PortEntry} (h : p.protocol.ignoresPort = true) :
    p.policyPort? = none ↔ ¬ (p.protocol = .any ∧ ∃ x, AsksFor p.port (some x)) := by
  simp only [← portValue_classify_eq_some_iff]
  have htransport := Protocol.transport_of_ignoresPort h
  unfold policyPort?
  simp only [htransport]
  generalize PortSyntax.classify p.port = s
  by_cases hany : p.protocol = .any
  · cases hs : s.portValue? p.port with
    | none => simp [hany]
    | some port => cases port <;> simp [hany, PolicyPort.isEmpty]
  · have hicmp : p.protocol = .icmp :=
      (Protocol.transport_eq_none_iff.1 htransport).resolve_right hany
    cases s <;> simp [hicmp, PortSyntax.isExplicit, PortSyntax.portValue?, PolicyPort.isEmpty]

/-- The entry with the word for every port in place of its port. -/
def onAnyPort (p : PortEntry) : PortEntry := { p with port := anyPort }

theorem policyPort_onAnyPort {p : PortEntry} (h : p.protocol.ignoresPort = true) :
    p.onAnyPort.policyPort? = none := by
  refine (policyPort_eq_none_iff (p := p.onAnyPort) h).2 ?_
  rintro ⟨-, x, hx⟩
  have hread : PortSyntax.classify p.onAnyPort.port = .any := by
    change PortSyntax.classify anyPort = .any
    decide
  rw [← portValue_classify_eq_some_iff, hread] at hx
  cases hx

theorem ignoresPort_of_ignored {p : PortEntry} (h : .ignored ∈ p.faults) :
    p.protocol.ignoresPort = true := by
  rcases List.mem_append.1 h with h | h
  · cases hs : PortSyntax.classify p.port <;> simp [hs, PortFault.ofSyntax] at h
  · unfold PortFault.ofProtocol at h
    split at h
    · next hignored =>
      simp only [Bool.and_eq_true] at hignored
      exact hignored.1.1
    · cases h

end PortEntry

/-! ## The warning -/

theorem Edge.fault_of_mem_findings {g : Snapshot} {e : Edge} {p : PortEntry} {fault : PortFault}
    (h : .port e p fault ∈ e.findings g) : e.kind = .rule ∧ fault ∈ p.faults := by
  obtain ⟨hrule, ⟨-, h⟩ | ⟨-, h⟩ | ⟨p', -, fault', hfault, h⟩⟩ := Edge.mem_findings.1 h
  · cases h
  · cases h
  · obtain ⟨-, rfl, rfl⟩ := Finding.port.inj h
    exact ⟨hrule, hfault⟩

/--
The port of an entry of which the validator says that it has no effect: to a policy it is the same
as every port, but where the protocol is ANY, the port is a number or a name, and the entry's rule
is in the policy, with a peer at the far end.
-/
theorem ignored_port_effect {g : Snapshot} {i j : Nat} {e : Edge} {p : PortEntry}
    (he : g.edges[i]? = some e) (hp : e.ports[j]? = some p)
    (hwarned : .port e p .ignored ∈ e.findings g) (target : String) :
    compile target (g.setEdge i (e.setPort j p.onAnyPort)) = compile target g ↔
      ¬ (p.protocol = .any ∧ (∃ x, AsksFor p.port (some x)) ∧
        ∃ policy, compile target g = .ok policy ∧ ∃ d : Direction, d.near e = target ∧
          ∃ peer, UsablePeer g policy.ns (d.far e) peer) := by
  obtain ⟨hrule, hfault⟩ := Edge.fault_of_mem_findings hwarned
  have hignores := PortEntry.ignoresPort_of_ignored hfault
  have hnone : p.onAnyPort.policyPort? = p.policyPort? ↔
      ¬ (p.protocol = .any ∧ ∃ x, AsksFor p.port (some x)) := by
    rw [PortEntry.policyPort_onAnyPort hignores, eq_comm, PortEntry.policyPort_eq_none_iff hignores]
  rw [compile_setEdge_eq_iff he]
  simp only [ruleIn_setPort_eq_iff hrule hp, hnone]
  constructor
  · rintro hall ⟨hany, hasks, policy, hpolicy, d, hnear, peer, hpeer⟩
    exact hall policy hpolicy d hnear peer hpeer ⟨hany, hasks⟩
  · rintro hno policy hpolicy d hnear peer hpeer ⟨hany, hasks⟩
    exact hno ⟨hany, hasks, policy, hpolicy, d, hnear, peer, hpeer⟩

theorem ignored_port_effect_ping :
    .port webToDbPorts.edges[0] ⟨"ping", "8", .icmp⟩ .ignored ∈
        webToDbPorts.edges[0].findings webToDbPorts ∧
      compile "db" (webToDbPorts.setEdge 0
          (webToDbPorts.edges[0].setPort 1 (PortEntry.onAnyPort ⟨"ping", "8", .icmp⟩))) =
        compile "db" webToDbPorts := by
  have he : webToDbPorts.edges[0]? = some webToDbPorts.edges[0] := rfl
  have hp : webToDbPorts.edges[0].ports[1]? = some ⟨"ping", "8", .icmp⟩ := rfl
  have hwarned : .port webToDbPorts.edges[0] ⟨"ping", "8", .icmp⟩ .ignored ∈
      webToDbPorts.edges[0].findings webToDbPorts := by decide
  refine ⟨hwarned, (ignored_port_effect he hp hwarned "db").2 ?_⟩
  rintro ⟨hany, -⟩
  cases hany

/-- The graph `webToDb` with a port beside ANY on its rule. -/
def webToDbHttps : Snapshot where
  nodes := webToDb.nodes
  edges := [{ id := "e", source := "web", target := "db", ports := [⟨"p", "443", .any⟩] }]

/-- A port is said to have no effect, and has one. -/
theorem ignored_port_enforced :
    ∃ e p, webToDbHttps.edges[0]? = some e ∧ e.ports[0]? = some p ∧
      .port e p .ignored ∈ e.findings webToDbHttps ∧
      (Finding.port e p .ignored).issue.message =
        "Protocol ANY (rule e) ignores specific ports; port '443' has no effect" ∧
      compile "db" (webToDbHttps.setEdge 0 (e.setPort 0 p.onAnyPort)) ≠
        compile "db" webToDbHttps := by
  refine ⟨webToDbHttps.edges[0], ⟨"p", "443", .any⟩, rfl, rfl, by decide, by decide, ?_⟩
  decide

end NetGraph
