import NetGraph.Proofs.IgnoredPort

/-!
# What is reported on a port entry

Whether an entry asks for a port is tested twice: a policy asks for the class of the text, and the
validator compares the text itself before it warns that a port has no effect.

* `PortEntry.issues` : the issues of an entry. `validate_dropPort` : they are there because of the
  entry, and all other issues are there without it;
* `PortEntry.ignoredWarning_mem_issues` : the warning stands for one fault and no other;
* `PortEntry.saysPort_iff` : the two tests differ on white space, and on nothing else;
* `ignored_port_reported` : so the warning stands beside ICMP and ANY where the text has an explicit
  class, and also on white space, beside the error that the port is empty (`blank_port_ignored`).
-/

namespace NetGraph

/-! ## The issues of one entry -/

/-- The issues that are made of a port entry, on the rule with the id `edgeId`. -/
def PortEntry.issues (edgeId : String) (p : PortEntry) : List Issue :=
  p.faults.map fun f => ⟨f.message edgeId p, some edgeId, some (portField p), f.severity⟩

/-- The issues that are made of an edge. -/
def Edge.issues (g : Snapshot) (e : Edge) : List Issue := (e.findings g).map Finding.issue

/-- The issues that are made of the two ends of a rule. -/
def Edge.endIssues (g : Snapshot) (e : Edge) : List Issue :=
  (if g.hasNode e.source then [] else [(Finding.missingSource e).issue]) ++
    (if g.hasNode e.target then [] else [(Finding.missingTarget e).issue])

/-- The edge without its port entry number `j`, from zero on. -/
def Edge.dropPort (e : Edge) (j : Nat) : Edge := { e with ports := e.ports.eraseIdx j }

theorem Edge.issues_of_rule {g : Snapshot} {e : Edge} (hrule : e.kind = .rule) :
    e.issues g = e.endIssues g ++ e.ports.flatMap (·.issues e.id) := by
  have hports : (e.ports.flatMap fun p => p.faults.map (Finding.port e p)).map Finding.issue =
      e.ports.flatMap (·.issues e.id) := by
    rw [List.map_flatMap]
    simp only [List.map_map]
    rfl
  have hisRule : e.isRule = true := decide_eq_true hrule
  unfold issues findings endIssues
  rw [if_pos hisRule, List.map_append, List.map_append, hports]
  cases g.hasNode e.source <;> cases g.hasNode e.target <;> rfl

theorem validate_eq_issues (g : Snapshot) :
    validate g =
      (g.nodes.flatMap Node.findings).map Finding.issue ++ g.edges.flatMap (Edge.issues g) := by
  have hedges : (g.edges.flatMap (Edge.findings g)).map Finding.issue =
      g.edges.flatMap (Edge.issues g) := List.map_flatMap ..
  rw [validate, Snapshot.findings, List.map_append, hedges]

section Cuts
variable {α β : Type} {l : List α} {i : Nat} {a : α}

theorem flatMap_set (h : l[i]? = some a) (b : α) (f : α → List β) :
    (l.set i b).flatMap f = (l.take i).flatMap f ++ f b ++ (l.drop (i + 1)).flatMap f := by
  obtain ⟨hi, -⟩ := List.getElem?_eq_some_iff.1 h
  rw [List.set_eq_take_append_cons_drop, if_pos hi, List.flatMap_append, List.flatMap_cons,
    List.append_assoc]

theorem flatMap_cut (h : l[i]? = some a) (f : α → List β) :
    l.flatMap f = (l.take i).flatMap f ++ f a ++ (l.drop (i + 1)).flatMap f := by
  obtain ⟨hi, rfl⟩ := List.getElem?_eq_some_iff.1 h
  rw [← flatMap_set h l[i] f, List.set_getElem_self]

end Cuts

/-- Without a port entry the graph has the same issues, in their order, but those of the entry. -/
theorem validate_dropPort {g : Snapshot} {i j : Nat} {e : Edge} {p : PortEntry}
    (he : g.edges[i]? = some e) (hrule : e.kind = .rule) (hp : e.ports[j]? = some p) :
    ∃ before after, validate g = before ++ p.issues e.id ++ after ∧
      validate (g.setEdge i (e.dropPort j)) = before ++ after := by
  have hrule' : (e.dropPort j).kind = .rule := hrule
  have hends : (e.dropPort j).endIssues g = e.endIssues g := rfl
  have hdrop : (e.dropPort j).ports.flatMap (·.issues e.id) =
      (e.ports.take j).flatMap (·.issues e.id) ++
        (e.ports.drop (j + 1)).flatMap (·.issues e.id) := by
    rw [Edge.dropPort, List.eraseIdx_eq_take_drop_succ, List.flatMap_append]
  refine ⟨(g.nodes.flatMap Node.findings).map Finding.issue ++
      (g.edges.take i).flatMap (Edge.issues g) ++ e.endIssues g ++
      (e.ports.take j).flatMap (·.issues e.id),
    (e.ports.drop (j + 1)).flatMap (·.issues e.id) ++
      (g.edges.drop (i + 1)).flatMap (Edge.issues g), ?_, ?_⟩
  · rw [validate_eq_issues, flatMap_cut he, Edge.issues_of_rule hrule, flatMap_cut hp]
    simp only [List.append_assoc]
  · -- the ends of edges are looked up among the nodes, which are those of `g`
    change validate { g with edges := g.edges.set i (e.dropPort j) } = _
    rw [validate_eq_issues]
    change _ ++ (g.edges.set i (e.dropPort j)).flatMap (Edge.issues g) = _
    rw [flatMap_set he, Edge.issues_of_rule hrule', hends, show (e.dropPort j).id = e.id from rfl,
      hdrop]
    simp only [List.append_assoc]

/-! ## Two tests for a port -/

namespace PortSyntax

theorem isExplicit_classify_iff {v : String} :
    (classify v).isExplicit = true ↔
      Text.isBlank v = false ∧ Text.equalsIgnoringCase v anyPort = false := by
  refine ⟨isExplicit_classify, fun ⟨hblank, hany⟩ => ?_⟩
  have hread := classify_isReading v
  generalize classify v = s at hread ⊢
  cases hread with
  | empty h =>
    rw [hblank] at h
    cases h
  | any h =>
    rw [hany] at h
    cases h
  | number | numberOutOfRange | range | rangeOutOfBounds | named | invalid => rfl

theorem not_any_of_isBlank {v : String} (h : Text.isBlank v = true) :
    Text.equalsIgnoringCase v anyPort = false := by
  rw [← Bool.not_eq_true]
  intro hany
  have hclass := IsReading.classify_eq (.empty h)
  rw [classify_of_any hany] at hclass
  cases hclass

end PortSyntax

namespace PortEntry

/-- One test asks whether the text is empty, the other one whether it is white space. -/
theorem saysPort_iff (v : String) :
    (v ≠ "" ∧ Text.equalsIgnoringCase v anyPort = false) ↔
      (PortSyntax.classify v).isExplicit = true ∨ (Text.isBlank v = true ∧ v ≠ "") := by
  rw [PortSyntax.isExplicit_classify_iff]
  constructor
  · rintro ⟨hne, hany⟩
    cases hblank : Text.isBlank v with
    | false => exact .inl ⟨rfl, hany⟩
    | true => exact .inr ⟨rfl, hne⟩
  · rintro (⟨hblank, hany⟩ | ⟨hblank, hne⟩)
    · refine ⟨?_, hany⟩
      rintro rfl
      cases hblank
    · exact ⟨hne, PortSyntax.not_any_of_isBlank hblank⟩

theorem ofProtocol_eq {p : PortEntry} :
    PortFault.ofProtocol p =
      if (p.protocol = .icmp ∨ p.protocol = .any) ∧ p.port ≠ "" ∧
        Text.equalsIgnoringCase p.port anyPort = false then some .ignored else none := by
  have hprotocol : p.protocol.ignoresPort = true ↔ p.protocol = .icmp ∨ p.protocol = .any := by
    cases p.protocol <;> decide
  unfold PortFault.ofProtocol
  simp only [Bool.and_eq_true, hprotocol, Bool.not_eq_true', and_assoc, String.isEmpty_eq_false_iff]

theorem ignored_mem_faults_iff {p : PortEntry} :
    .ignored ∈ p.faults ↔
      (p.protocol = .icmp ∨ p.protocol = .any) ∧ p.port ≠ "" ∧
        Text.equalsIgnoringCase p.port anyPort = false := by
  have hsyntax : PortFault.ignored ∉ (PortFault.ofSyntax (.classify p.port)).toList := by
    cases PortSyntax.classify p.port <;> simp [PortFault.ofSyntax]
  rw [faults, List.mem_append, or_iff_right hsyntax, ofProtocol_eq]
  split <;> simp_all

/-! ## The warning -/

/-- The warning that the port of an entry has no effect. -/
def ignoredWarning (edgeId : String) (p : PortEntry) : Issue where
  message := s!"Protocol {p.protocol.name} (rule {shortId edgeId}) ignores specific ports; "
    ++ s!"port '{p.port}' has no effect"
  elementId := some edgeId
  fieldKey := some s!"ports[{p.id}].port"
  severity := .warning

/-- The error that the text of an entry is blank. -/
def emptyError (edgeId : String) (p : PortEntry) : Issue where
  message := "Port cannot be empty"
  elementId := some edgeId
  fieldKey := some s!"ports[{p.id}].port"
  severity := .error

/-- The two warnings of an entry differ in their second letter. -/
theorem range_message_ne (edgeId : String) (p : PortEntry) :
    PortFault.range.message edgeId p ≠ (p.ignoredWarning edgeId).message := by
  have hrange : (PortFault.range.message edgeId p).toList[1]? = some 'o' := by
    change (("Port range '" ++ p.port) ++ _).toList[1]? = some 'o'
    simp
  have hignored : (p.ignoredWarning edgeId).message.toList[1]? = some 'r' := by
    change (((("Protocol " ++ p.protocol.name) ++ _) ++ _) ++ _ ++ _).toList[1]? = some 'r'
    simp
  intro h
  rw [h, hignored] at hrange
  exact absurd hrange (by decide)

theorem ignoredWarning_mem_issues {edgeId : String} {p : PortEntry} :
    p.ignoredWarning edgeId ∈ p.issues edgeId ↔ .ignored ∈ p.faults := by
  constructor
  · intro h
    obtain ⟨fault, hfault, heq⟩ := List.mem_map.1 h
    obtain ⟨hmessage, -, -, hseverity⟩ := Issue.mk.inj heq
    cases fault with
    | ignored => exact hfault
    | range => exact absurd hmessage (range_message_ne edgeId p)
    | empty | numberOutOfRange | invalid => cases hseverity
  · exact fun h => List.mem_map.2 ⟨.ignored, h, rfl⟩

theorem issues_of_empty {edgeId : String} {p : PortEntry}
    (h : PortSyntax.classify p.port = .empty) :
    p.issues edgeId = p.emptyError edgeId ::
      if (p.protocol = .icmp ∨ p.protocol = .any) ∧ p.port ≠ "" then [p.ignoredWarning edgeId]
      else [] := by
  have hany : Text.equalsIgnoringCase p.port anyPort = false := by
    have hread := PortSyntax.classify_isReading p.port
    rw [h] at hread
    cases hread with
    | empty hblank => exact PortSyntax.not_any_of_isBlank hblank
  rw [issues, faults, h, ofProtocol_eq]
  simp only [hany, and_true]
  split <;> rfl

end PortEntry

/--
The issues of a port entry of a rule are those that the graph has not without it. Among them is the
warning that the port has no effect iff the protocol is ICMP or ANY and the text either has another
class than the blank ones and `any`, or is white space. An entry with a blank text has the error
that it is empty, and no other issue but this warning on white space.
-/
theorem ignored_port_reported {g : Snapshot} {i j : Nat} {e : Edge} {p : PortEntry}
    (he : g.edges[i]? = some e) (hrule : e.kind = .rule) (hp : e.ports[j]? = some p) :
    (∃ before after, validate g = before ++ p.issues e.id ++ after ∧
      validate (g.setEdge i (e.dropPort j)) = before ++ after) ∧
    (p.ignoredWarning e.id ∈ p.issues e.id ↔
      (p.protocol = .icmp ∨ p.protocol = .any) ∧
        ((PortSyntax.classify p.port).isExplicit = true ∨
          (Text.isBlank p.port = true ∧ p.port ≠ ""))) ∧
    (PortSyntax.classify p.port = .empty →
      p.issues e.id = p.emptyError e.id ::
        if (p.protocol = .icmp ∨ p.protocol = .any) ∧ p.port ≠ "" then [p.ignoredWarning e.id]
        else []) := by
  refine ⟨validate_dropPort he hrule hp, ?_, PortEntry.issues_of_empty⟩
  rw [PortEntry.ignoredWarning_mem_issues, PortEntry.ignored_mem_faults_iff, PortEntry.saysPort_iff]

/-- The graph `webToDb` with white space for a port beside ICMP on its rule. -/
def webToDbBlank : Snapshot where
  nodes := webToDb.nodes
  edges := [{ id := "e", source := "web", target := "db", ports := [⟨"p", " ", .icmp⟩] }]

theorem ignored_port_reported_blank :
    webToDbBlank.edges[0].kind = .rule ∧
      PortEntry.issues "e" ⟨"p", " ", .icmp⟩ =
        [PortEntry.emptyError "e" ⟨"p", " ", .icmp⟩,
          PortEntry.ignoredWarning "e" ⟨"p", " ", .icmp⟩] := by
  have he : webToDbBlank.edges[0]? = some webToDbBlank.edges[0] := rfl
  have hp : webToDbBlank.edges[0].ports[0]? = some ⟨"p", " ", .icmp⟩ := rfl
  exact ⟨rfl, (ignored_port_reported he rfl hp).2.2 (by decide)⟩

/-- An entry whose text is blank is reported as empty, and as a port that has no effect. -/
theorem blank_port_ignored :
    ∃ e ∈ webToDbBlank.edges, e.kind = .rule ∧ ∃ p ∈ e.ports,
      PortSyntax.classify p.port = .empty ∧
        p.ignoredWarning e.id ∈ validate webToDbBlank ∧ (validate webToDbBlank).length = 2 := by
  refine ⟨webToDbBlank.edges[0], by decide, rfl, ⟨"p", " ", .icmp⟩, by decide, ?_⟩
  decide

end NetGraph
