import NetGraph.Proofs.Gate

/-!
# What becomes of a port entry

* `AsksFor` : the port that a text asks for, as it is written;
* `PortEntry.policyPort_of_no_faults` : an entry without faults goes into the manifest as it is
  written;
* `PortEntry.fault_of_policyPort_eq_none` : an entry that is dropped has a fault, or else asks for
  nothing;
* `mem_warnings` : behind the gate, what was found at a rule of the target is among the warnings;
* `port_kept_or_reported` : so no restriction of ports is dropped without a warning.
-/

namespace NetGraph

/-! ## Entries and their faults -/

/-- The port that the text `v` asks for: every port, that of its number, or that of this name. -/
inductive AsksFor (v : String) : Option PortValue → Prop where
  | every : Text.equalsIgnoringCase v anyPort = true → AsksFor v none
  | number {n : UInt16} : decimal? v.toList = some n.toNat → 1 ≤ n.toNat →
      AsksFor v (some (.number n))
  | name : IsWord v → IsDnsLabel v → AsksFor v (some (.name v))

theorem Protocol.transport_eq_some_iff {p : Protocol} {t : Transport} :
    p.transport? = some t ↔ t.name = p.name := by
  cases p <;> cases t <;> decide

theorem Protocol.transport_eq_none_iff {p : Protocol} :
    p.transport? = none ↔ p = .icmp ∨ p = .any := by
  cases p <;> decide

theorem PortSyntax.isExplicit_classify {v : String} (h : (classify v).isExplicit = true) :
    Text.isBlank v = false ∧ Text.equalsIgnoringCase v anyPort = false := by
  constructor
  · by_contra hblank
    rw [classify, if_pos (Bool.not_eq_false _ ▸ hblank)] at h
    cases h
  · by_contra hany
    rw [classify_of_any (Bool.not_eq_false _ ▸ hany)] at h
    cases h

theorem PortSyntax.isExplicit_of_portValue {s : PortSyntax} {v : String} {x : PortValue}
    (h : s.portValue? v = some (some x)) : s.isExplicit = true := by
  cases s <;> simp_all [portValue?, isExplicit]

namespace PortEntry

/-- An explicit port beside a protocol without ports is a fault. -/
theorem ignored_mem_faults {p : PortEntry} (hp : p.protocol = .icmp ∨ p.protocol = .any)
    (h : (PortSyntax.classify p.port).isExplicit = true) : .ignored ∈ p.faults := by
  obtain ⟨hblank, hany⟩ := PortSyntax.isExplicit_classify h
  have hempty : p.port.isEmpty = false := by
    rw [← Bool.not_eq_true, String.isEmpty_iff]
    intro hempty
    rw [hempty] at hblank
    cases hblank
  have hprotocol : p.protocol.ignoresPort = true := by rcases hp with hp | hp <;> rw [hp] <;> rfl
  simp [faults, PortFault.ofProtocol, hprotocol, hempty, hany]

theorem policyPort_of_transport {p : PortEntry} {t : Transport}
    (ht : p.protocol.transport? = some t) :
    p.policyPort? =
      ((PortSyntax.classify p.port).portValue? p.port).map fun port => ⟨some t, port⟩ := by
  have hicmp : p.protocol ≠ .icmp := by
    intro h
    rw [h] at ht
    cases ht
  unfold policyPort?
  simp only [hicmp, false_and, if_false, ht]
  cases (PortSyntax.classify p.port).portValue? p.port <;> rfl

/-- An entry without faults says a port, if not by number then by name or as every port. -/
theorem asksFor_of_no_faults {p : PortEntry} (h : p.faults = []) :
    ∃ port, AsksFor p.port port ∧ (PortSyntax.classify p.port).portValue? p.port = some port := by
  have hsyntax : PortFault.ofSyntax (PortSyntax.classify p.port) = none :=
    Option.toList_eq_nil_iff.1 (List.append_eq_nil_iff.1 h).1
  have hread := PortSyntax.classify_isReading p.port
  generalize PortSyntax.classify p.port = s at hsyntax hread ⊢
  cases hread with
  | any hany => exact ⟨none, .every hany, rfl⟩
  | @number n hdec hlo => exact ⟨some (.number n), .number hdec hlo, rfl⟩
  | named hword hname => exact ⟨some (.name p.port), .name hword hname, rfl⟩
  | empty | numberOutOfRange | range | rangeOutOfBounds | invalid => cases hsyntax

theorem policyPort_of_no_faults {p : PortEntry} {t : Transport} (h : p.faults = [])
    (ht : t.name = p.protocol.name) :
    ∃ port, AsksFor p.port port ∧ p.policyPort? = some ⟨some t, port⟩ := by
  obtain ⟨port, hasks, hport⟩ := asksFor_of_no_faults h
  refine ⟨port, hasks, ?_⟩
  rw [policyPort_of_transport (Protocol.transport_eq_some_iff.2 ht), hport]
  rfl

theorem fault_of_policyPort_eq_none {p : PortEntry} (h : p.policyPort? = none) :
    ((p.protocol = .icmp ∨ p.protocol = .any) ∧ Text.equalsIgnoringCase p.port anyPort = true) ∨
      p.faults ≠ [] := by
  by_cases hfaults : p.faults = []
  · refine .inl ?_
    cases ht : p.protocol.transport? with
    | some t =>
      obtain ⟨port, -, hport⟩ :=
        policyPort_of_no_faults hfaults (Protocol.transport_eq_some_iff.1 ht)
      rw [h] at hport
      cases hport
    | none =>
      have hp := Protocol.transport_eq_none_iff.1 ht
      refine ⟨hp, ?_⟩
      obtain ⟨port, hasks, hport⟩ := asksFor_of_no_faults hfaults
      cases hasks with
      | every hany => exact hany
      | number | name =>
        have hmem := ignored_mem_faults hp (PortSyntax.isExplicit_of_portValue hport)
        rw [hfaults] at hmem
        cases hmem
  · exact .inr hfaults

end PortEntry

/-! ## Behind the gate -/

/-- A warning of the manifest on the entry `p` of the edge `e`. -/
def Generated.Reports (m : Generated) (e : Edge) (p : PortEntry) : Prop :=
  ∃ w ∈ m.warnings, w.elementId = some e.id ∧ w.fieldKey = some s!"ports[{p.id}].port"

instance (m : Generated) (e : Edge) (p : PortEntry) : Decidable (m.Reports e p) :=
  inferInstanceAs (Decidable (∃ w ∈ m.warnings, _))

/-- Where no two edges bear one id, all that was found at a rule of the target is a warning. -/
theorem mem_warnings {g : Snapshot} {target : String} {m : Generated}
    (hm : generate (some target) g (validate g) = .rendered m)
    (hids : (g.edges.map (·.id)).Nodup) {e : Edge} (he : e ∈ g.rulesTouching target) {f : Finding}
    (hf : f ∈ e.findings g) : f.issue ∈ m.warnings := by
  obtain ⟨n, q, -, -, -, rfl⟩ := generate_eq_rendered_iff.1 hm
  obtain ⟨hmem, -, htouches⟩ := Snapshot.mem_rulesTouching.1 he
  refine List.mem_map_of_mem (List.mem_filter.2 ⟨Snapshot.mem_findings.2 (.inr ⟨e, hmem, hf⟩), ?_⟩)
  rw [Edge.elementId_of_mem_findings hf, Snapshot.sees_iff_not_hidden hmem]
  exact Snapshot.not_hidden_of_nodup hids hmem htouches

theorem reports_of_faults {g : Snapshot} {target : String} {m : Generated}
    (hm : generate (some target) g (validate g) = .rendered m)
    (hids : (g.edges.map (·.id)).Nodup) {e : Edge} (he : e ∈ g.rulesTouching target)
    {p : PortEntry} (hp : p ∈ e.ports) (h : p.faults ≠ []) : m.Reports e p := by
  obtain ⟨fault, hfault⟩ := List.exists_mem_of_ne_nil _ h
  have hrule := (Snapshot.mem_rulesTouching.1 he).2.1
  have hf : Finding.port e p fault ∈ e.findings g :=
    Edge.mem_findings.2 ⟨hrule, .inr (.inr ⟨p, hp, fault, hfault, rfl⟩)⟩
  exact ⟨_, mem_warnings hm hids he hf, rfl, rfl⟩

/--
In a rendered manifest for a graph without repeated edge ids, an entry of a rule at the target is
dropped only if it asks for nothing, or under a warning that names the rule and the entry. An entry
with a transport protocol and no such warning is in the manifest with this protocol and the port
that it asks for.
-/
theorem port_kept_or_reported {g : Snapshot} {target : String} {m : Generated}
    (hids : (g.edges.map (·.id)).Nodup)
    (hm : generate (some target) g (validate g) = .rendered m) :
    ∀ e ∈ g.rulesTouching target, ∀ p ∈ e.ports,
      (p.policyPort? = none →
        ((p.protocol = .icmp ∨ p.protocol = .any) ∧
          Text.equalsIgnoringCase p.port anyPort = true) ∨ m.Reports e p) ∧
      (¬ m.Reports e p → ∀ t : Transport, t.name = p.protocol.name →
        ∃ port, AsksFor p.port port ∧ p.policyPort? = some ⟨some t, port⟩) := by
  intro e he p hp
  constructor
  · intro hnone
    exact (PortEntry.fault_of_policyPort_eq_none hnone).imp_right
      (reports_of_faults hm hids he hp)
  · intro hsilent t ht
    have hfaults : p.faults = [] := by
      by_contra hne
      exact hsilent (reports_of_faults hm hids he hp hne)
    exact PortEntry.policyPort_of_no_faults hfaults ht

/-- The graph `webToDb` with a port on its rule that is kept and one that is dropped. -/
def webToDbPorts : Snapshot where
  nodes := webToDb.nodes
  edges :=
    [{ id := "e", source := "web", target := "db",
       ports := [⟨"http", "08080", .tcp⟩, ⟨"ping", "8", .icmp⟩] }]

theorem port_kept_or_reported_webToDbPorts :
    ∃ m, generate (some "db") webToDbPorts (validate webToDbPorts) = .rendered m ∧
      ∃ e ∈ webToDbPorts.rulesTouching "db", m.Reports e ⟨"ping", "8", .icmp⟩ ∧
        ∃ port, AsksFor "08080" port ∧
          PortEntry.policyPort? ⟨"http", "08080", .tcp⟩ = some ⟨some .tcp, port⟩ := by
  have hn : webToDbPorts.node? "db" = some webToDb.nodes[1] := by decide
  have hids : (webToDbPorts.edges.map (·.id)).Nodup := by decide
  have hm := generate_eq_rendered_iff.2 ⟨_, _, hn, rfl, by decide, rfl⟩
  have he : webToDbPorts.edges[0] ∈ webToDbPorts.rulesTouching "db" := by decide
  have hports := port_kept_or_reported hids hm _ he
  refine ⟨_, hm, _, he, ?_, ?_⟩
  · have hping := (hports ⟨"ping", "8", .icmp⟩ (by decide)).1 (by decide)
    exact hping.resolve_left (by decide)
  · exact (hports ⟨"http", "08080", .tcp⟩ (by decide)).2 (by decide) .tcp (by decide)

end NetGraph
