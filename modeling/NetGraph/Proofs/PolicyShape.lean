import NetGraph.Proofs.EdgeRule
import NetGraph.Proofs.Port

/-!
# The shape of a compiled policy

Whatever the graph, and whatever the validator says of it:

* `PolicyPort.WellFormed` : a port says something, and what it says is a port number or the name of
  a port; `wellFormed_of_policyPort`;
* `Peer.WellFormed` : a peer selects something, and a namespace by its name only;
  `UsablePeer.wellFormed`;
* `compile_wellFormed` : every rule has one such peer and such ports.
-/

namespace NetGraph

/-! ## Ports -/

/-- A port number, or a DNS label that is no other spelling of a port. -/
inductive PortValue.WellFormed : PortValue → Prop where
  | number {n : UInt16} : 1 ≤ n.toNat → n.toNat ≤ 65535 → WellFormed (.number n)
  | name {s : String} : IsDnsLabel s → IsWord s → WellFormed (.name s)

/-- A port of a manifest that names a protocol, a port or both, and no port that does not exist. -/
structure PolicyPort.WellFormed (p : PolicyPort) : Prop where
  nonempty : p.protocol.isSome = true ∨ p.port.isSome = true
  port : ∀ v, p.port = some v → v.WellFormed

theorem PortSyntax.IsReading.wellFormed {text : String} {s : PortSyntax} {v : PortValue}
    (hread : IsReading text s) (hv : s.portValue? text = some (some v)) : v.WellFormed := by
  cases hread with
  | number hdec hlo =>
    obtain rfl := Option.some.inj (Option.some.inj hv)
    exact .number hlo (Nat.le_of_lt_succ (UInt16.toNat_lt _))
  | named hword hname =>
    obtain rfl := Option.some.inj (Option.some.inj hv)
    exact .name hname hword
  | empty | any | numberOutOfRange | range | rangeOutOfBounds | invalid => cases hv

theorem PortEntry.policyPort_eq_some {p : PortEntry} {x : PolicyPort} (h : p.policyPort? = some x) :
    x.protocol = p.protocol.transport? ∧
      (PortSyntax.classify p.port).portValue? p.port = some x.port ∧ x.isEmpty = false := by
  unfold policyPort? at h
  dsimp only at h
  split at h
  · cases h
  · obtain ⟨port, hport, h⟩ := Option.bind_eq_some_iff.1 h
    split at h
    · cases h
    · next hempty =>
      obtain rfl := Option.some.inj h
      exact ⟨rfl, hport, Bool.not_eq_true _ ▸ hempty⟩

theorem PortEntry.wellFormed_of_policyPort {p : PortEntry} {x : PolicyPort}
    (h : p.policyPort? = some x) : x.WellFormed := by
  -- an entry that leaves nothing is dropped, and only two readings leave a port
  obtain ⟨-, hport, hempty⟩ := policyPort_eq_some h
  constructor
  · rw [PolicyPort.isEmpty, Bool.and_eq_false_iff] at hempty
    simpa using hempty
  · intro v hv
    exact (PortSyntax.classify_isReading p.port).wellFormed (hv ▸ hport)

/-! ## Peers -/

/--
A peer of a policy in `policyNs` that selects something. A selector of namespaces holds the name of
one and nothing else; beside a selector of pods it is not the policy's own namespace.
-/
structure Peer.WellFormed (policyNs : String) (p : Peer) : Prop where
  selects : p.pods.isSome = true ∨ p.namespaces.isSome = true
  namespaces : ∀ l, p.namespaces = some l →
    ∃ name, l.entries = [("kubernetes.io/metadata.name", name)] ∧ name ≠ "" ∧
      (p.pods.isSome = true → name ≠ policyNs)

theorem UsablePeer.wellFormed {g : Snapshot} {policyNs id : String} {p : Peer}
    (h : UsablePeer g policyNs id p) : p.WellFormed policyNs := by
  cases h with
  | podsHere => exact ⟨.inl rfl, fun l hl => nomatch hl⟩
  | podsElsewhere _ _ hne hother =>
    refine ⟨.inl rfl, fun l hl => ?_⟩
    obtain rfl := Option.some.inj hl
    exact ⟨_, rfl, hne, fun _ => hother⟩
  | wholeNs _ _ hne =>
    refine ⟨.inr rfl, fun l hl => ?_⟩
    obtain rfl := Option.some.inj hl
    exact ⟨_, rfl, hne, fun hpods => nomatch hpods⟩

/-! ## Rules -/

/-- A rule of a policy in `policyNs` with one peer. -/
structure PolicyRule.WellFormed (policyNs : String) (r : PolicyRule) : Prop where
  peer : ∃ p, r.peers = [p] ∧ p.WellFormed policyNs
  ports : ∀ p ∈ r.ports, p.WellFormed

/-- A policy whose rules are well formed, in the sections that are written out. -/
structure Policy.WellFormed (p : Policy) : Prop where
  ingress : ∀ rules, p.ingress = some rules → ∀ r ∈ rules, r.WellFormed p.ns
  egress : ∀ rules, p.egress = some rules → ∀ r ∈ rules, r.WellFormed p.ns

theorem wellFormed_of_mem_rules {g : Snapshot} {target : String} {p : Policy}
    (hp : compile target g = .ok p) {d : Direction} {r : PolicyRule} (hr : r ∈ p.rules d) :
    r.WellFormed p.ns := by
  obtain ⟨e, -, -, -, peer, hpeer, rfl⟩ := edge_of_mem_rules hp hr
  refine ⟨⟨peer, rfl, hpeer.wellFormed⟩, fun x hx => ?_⟩
  obtain ⟨entry, -, hentry⟩ := List.mem_filterMap.1 hx
  exact PortEntry.wellFormed_of_policyPort hentry

/-- Every compiled policy is well formed, be the graph valid or not. -/
theorem compile_wellFormed {g : Snapshot} {target : String} {p : Policy}
    (hp : compile target g = .ok p) : p.WellFormed := by
  constructor
  · intro rules hrules r hr
    refine wellFormed_of_mem_rules hp (d := .ingress) ?_
    rw [Policy.rules, Policy.written, hrules]
    exact hr
  · intro rules hrules r hr
    refine wellFormed_of_mem_rules hp (d := .egress) ?_
    rw [Policy.rules, Policy.written, hrules]
    exact hr

/-- A rule with all sorts of ports, from a pod group of another namespace that has no valid name. -/
def untidyDb : Snapshot where
  nodes :=
    [{ id := "ns", body := .ns "" },
      { id := "web", body := .podGroup ⟨"Web Pods", "front end", .singleton "app" "web", {}⟩ },
      { id := "db", body := .podGroup dbGroup }]
  edges :=
    [{ id := "a", source := "ns", target := "db" },
      { id := "b", source := "web", target := "db",
        ports := [⟨"p", "0", .tcp⟩, ⟨"p", "1-2", .tcp⟩, ⟨"p", "0443", .any⟩, ⟨"p", "http", .udp⟩] }]

theorem compile_wellFormed_untidyDb :
    ∃ p, compile "db" untidyDb = .ok p ∧ p.WellFormed ∧ p.ingress = some
      [⟨[⟨some (.singleton "app" "web"), some (nsSelector "front end")⟩],
        [⟨none, some (.number 443)⟩, ⟨some .udp, some (.name "http")⟩]⟩] := by
  have hn : untidyDb.node? "db" = some { id := "db", body := .podGroup dbGroup } := by decide
  have hp := compile_eq_ok_iff.2 ⟨_, dbGroup, hn, rfl, by decide, rfl⟩
  exact ⟨_, hp, compile_wellFormed hp, by decide +kernel⟩

end NetGraph
