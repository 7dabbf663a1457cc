import NetGraph.Validation
import NetGraph.Proofs.Port

/-!
# What the validator's findings say of an element

* `Finding.issue_elementId`, `Finding.issue_fieldKey` : a finding is reported under the id of the
  node or edge it was made on, and under the key of the field;
* `Edge.port_of_mem_findings` : an edge between two nodes has findings on its port entries only;
* `Snapshot.HasErrorAt` : an error of the graph at one field of one element;
* `ErrorFree` : findings that hold no error, though maybe warnings;
* `Node.Violates`, `Edge.Violates` : the fields of an element that are not in their grammar or lead
  nowhere, under the keys by which issues name them;
* `Node.exists_error_iff`, `Edge.exists_error_iff` : an element has an error at just these fields;
* `PodGroup.accepts_of_errorFree` : so a pod group without errors has DNS labels for its two names,
  and labels by the grammar (`PodGroup.isLabel_of_errorFree`);
* `Edge.errorFree_iff` : and a rule is without errors iff it is `Edge.Sound`, that is, its ends are
  nodes and its port texts are ports.
-/

namespace NetGraph

/-! ## The element of a finding -/

namespace Finding

/-- The id of the node or edge that a finding was made on. -/
def elementId : Finding → String
  | podGroup n _ | nsName n _ => n.id
  | missingSource e | missingTarget e | port e _ _ => e.id

@[simp] theorem issue_elementId (f : Finding) : f.issue.elementId = some f.elementId := by
  cases f <;> rfl

/-- The key of the field that a finding is about. -/
def field : Finding → String
  | podGroup _ f => f.field
  | nsName _ _ => "label"
  | missingSource _ => "source"
  | missingTarget _ => "target"
  | port _ p _ => portField p

@[simp] theorem issue_fieldKey (f : Finding) : f.issue.fieldKey = some f.field := by
  cases f <;> rfl

/-- How serious a finding is. -/
def severity : Finding → Severity
  | podGroup _ f => f.severity
  | port _ _ f => f.severity
  | nsName _ _ | missingSource _ | missingTarget _ => .error

theorem issue_isError {f : Finding} : f.issue.isError = false ↔ f.severity ≠ .error := by
  cases f <;> exact decide_eq_false_iff_not

theorem issue_isError_iff {f : Finding} : f.issue.isError = true ↔ f.severity = .error := by
  rw [← Bool.not_eq_false, issue_isError, not_not]

end Finding

theorem Node.mem_findings {n : Node} {f : Finding} :
    f ∈ n.findings ↔
      (∃ q, n.body = .podGroup q ∧ ∃ fault ∈ q.faults, f = .podGroup n fault) ∨
        ∃ name, n.body = .ns name ∧
          ∃ fault, DnsLabel.check name = .error fault ∧ f = .nsName n fault := by
  unfold Node.findings
  cases n.body with
  | podGroup q => simp [eq_comm]
  | ns name => cases h : DnsLabel.check name <;> simp [h]
  | unknown => simp

theorem Node.elementId_of_mem_findings {n : Node} {f : Finding} (h : f ∈ n.findings) :
    f.elementId = n.id := by
  obtain ⟨q, -, fault, -, rfl⟩ | ⟨name, -, fault, -, rfl⟩ := Node.mem_findings.1 h <;> rfl

theorem Edge.mem_findings {g : Snapshot} {e : Edge} {f : Finding} :
    f ∈ e.findings g ↔ e.kind = .rule ∧
      ((g.hasNode e.source = false ∧ f = .missingSource e) ∨
        (g.hasNode e.target = false ∧ f = .missingTarget e) ∨
        ∃ p ∈ e.ports, ∃ fault ∈ p.faults, f = .port e p fault) := by
  unfold Edge.findings Edge.isRule
  by_cases hrule : e.kind = .rule
  · simp only [hrule, decide_true, if_true, true_and, List.mem_append, List.mem_ite_nil_left,
      List.mem_singleton, List.mem_flatMap, List.mem_map, Bool.not_eq_true, or_assoc,
      eq_comm (b := f)]
  · simp [hrule]

theorem Edge.elementId_of_mem_findings {g : Snapshot} {e : Edge} {f : Finding}
    (h : f ∈ e.findings g) : f.elementId = e.id := by
  obtain ⟨-, ⟨-, rfl⟩ | ⟨-, rfl⟩ | ⟨p, -, fault, -, rfl⟩⟩ := Edge.mem_findings.1 h <;> rfl

theorem Snapshot.hasNode_eq_isSome (g : Snapshot) (id : String) :
    g.hasNode id = (g.node? id).isSome := by
  rw [hasNode, node?, List.isSome_find?]

/-- An edge between two nodes has no finding but on its port entries. -/
theorem Edge.port_of_mem_findings {g : Snapshot} {e : Edge}
    (hs : (g.node? e.source).isSome = true) (ht : (g.node? e.target).isSome = true)
    {f : Finding} (hf : f ∈ e.findings g) : ∃ p ∈ e.ports, ∃ fault, f = .port e p fault := by
  rw [← Snapshot.hasNode_eq_isSome] at hs ht
  obtain ⟨-, ⟨hno, -⟩ | ⟨hno, -⟩ | ⟨p, hp, fault, -, rfl⟩⟩ := Edge.mem_findings.1 hf
  · rw [hs] at hno
    cases hno
  · rw [ht] at hno
    cases hno
  · exact ⟨p, hp, fault, rfl⟩

theorem Snapshot.mem_findings {g : Snapshot} {f : Finding} :
    f ∈ g.findings ↔ (∃ n ∈ g.nodes, f ∈ n.findings) ∨ ∃ e ∈ g.edges, f ∈ e.findings g := by
  simp [Snapshot.findings]

/-! ## Errors at fields -/

/-- Some issue of the graph is an error at this field of the element `id`. -/
def Snapshot.HasErrorAt (g : Snapshot) (id field : String) : Prop :=
  ∃ i ∈ validate g, i.isError = true ∧ i.elementId = some id ∧ i.fieldKey = some field

theorem Snapshot.hasErrorAt_iff_finding {g : Snapshot} {id field : String} :
    g.HasErrorAt id field ↔
      ∃ f ∈ g.findings, f.severity = .error ∧ f.elementId = id ∧ f.field = field := by
  simp [HasErrorAt, validate, Finding.issue_isError_iff]

/-! ## Findings without errors -/

/-- No finding of the list is an error. -/
def ErrorFree (findings : List Finding) : Prop := ∀ f ∈ findings, f.issue.isError = false

instance (findings : List Finding) : Decidable (ErrorFree findings) :=
  decidable_of_iff (findings.all fun f => !f.issue.isError) (by simp [ErrorFree])

theorem errorFree_iff_forall {fs : List Finding} :
    ErrorFree fs ↔ ∀ field, ¬ ∃ f ∈ fs, f.severity = .error ∧ f.field = field := by
  constructor
  · rintro h field ⟨f, hf, hsev, -⟩
    exact Finding.issue_isError.1 (h f hf) hsev
  · intro h f hf
    exact Finding.issue_isError.2 fun hsev => h f.field ⟨f, hf, hsev, rfl⟩

/-! ## Errors at nodes -/

/-- A key that is a part of a label, with a value that is empty or one too. -/
def IsLabel (k v : String) : Prop := IsLabelPart k ∧ (v = "" ∨ IsLabelPart v)

/-- The fields of a node that are not in their grammar. -/
inductive Node.Violates (n : Node) : String → Prop where
  | name {q : PodGroup} : n.body = .podGroup q → ¬ IsDnsLabel q.name → n.Violates "metadata.name"
  | ns {q : PodGroup} : n.body = .podGroup q → ¬ IsDnsLabel q.ns → n.Violates "metadata.namespace"
  | label {q : PodGroup} {k v : String} : n.body = .podGroup q → (k, v) ∈ q.labels.entries →
      ¬ IsLabel k v → n.Violates s!"labels.\"{k}\""
  | nsName {name : String} : n.body = .ns name → ¬ IsDnsLabel name → n.Violates "label"

namespace PodGroupFault

/-- All that is wrong with one label is an error at its field. -/
theorem of_mem_ofLabel {k v : String} {f : PodGroupFault} (h : f ∈ ofLabel k v) :
    f.severity = .error ∧ f.field = s!"labels.\"{k}\"" := by
  unfold ofLabel at h
  split at h
  · obtain rfl := List.mem_singleton.1 h
    exact ⟨rfl, rfl⟩
  · rcases List.mem_append.1 h with h | h
    · split at h
      · cases h
      · obtain rfl := List.mem_singleton.1 h
        exact ⟨rfl, rfl⟩
    · split at h
      · cases h
      · split at h
        · cases h
        · obtain rfl := List.mem_singleton.1 h
          exact ⟨rfl, rfl⟩

theorem ofLabel_eq_nil_iff {k v : String} : ofLabel k v = [] ↔ IsLabel k v := by
  unfold ofLabel IsLabel
  split
  · next hblank =>
    refine iff_of_false (List.cons_ne_nil _ _) fun h => ?_
    rw [LabelPart.not_isBlank h.1] at hblank
    cases hblank
  · rw [List.append_eq_nil_iff, ← LabelPart.accepts_iff, ← LabelPart.accepts_iff,
      LabelPart.accepts, LabelPart.accepts]
    cases LabelPart.check k <;> cases LabelPart.check v <;> simp [Except.isOk, Except.toBool]

end PodGroupFault

theorem PodGroup.mem_faults {q : PodGroup} {fault : PodGroupFault} :
    fault ∈ q.faults ↔
      (∃ f, DnsLabel.check q.name = .error f ∧ fault = .name f) ∨
      (∃ f, DnsLabel.check q.ns = .error f ∧ fault = .ns f) ∨
      (q.labels.isEmpty = true ∧ fault = .noLabels) ∨
      ∃ e ∈ q.labels.entries, fault ∈ PodGroupFault.ofLabel e.1 e.2 := by
  have hlabels : fault ∈ (if q.labels.isEmpty then [.noLabels]
        else q.labels.entries.flatMap fun e => PodGroupFault.ofLabel e.1 e.2) ↔
      (q.labels.isEmpty = true ∧ fault = .noLabels) ∨
        ∃ e ∈ q.labels.entries, fault ∈ PodGroupFault.ofLabel e.1 e.2 := by
    split
    · next hnil => simp [hnil, List.isEmpty_iff.1 hnil]
    · next hnil => simp [hnil]
  unfold PodGroup.faults
  rw [List.mem_append, List.mem_append, hlabels, or_assoc]
  cases DnsLabel.check q.name <;> cases DnsLabel.check q.ns <;> simp

theorem Node.exists_error_iff {n : Node} {field : String} :
    (∃ f ∈ n.findings, f.severity = .error ∧ f.field = field) ↔ n.Violates field := by
  constructor
  · rintro ⟨f, hf, hsev, rfl⟩
    obtain ⟨q, hq, fault, hfault, rfl⟩ | ⟨name, hname, fault, hfault, rfl⟩ := Node.mem_findings.1 hf
    · obtain ⟨x, hx, rfl⟩ | ⟨x, hx, rfl⟩ | ⟨-, rfl⟩ | ⟨e, he, hmem⟩ := PodGroup.mem_faults.1 hfault
      · exact .name hq (DnsLabel.exists_fault_iff.1 ⟨x, hx⟩)
      · exact .ns hq (DnsLabel.exists_fault_iff.1 ⟨x, hx⟩)
      · cases hsev
      · rw [show (Finding.podGroup n fault).field = _ from (PodGroupFault.of_mem_ofLabel hmem).2]
        exact .label hq he fun h => List.ne_nil_of_mem hmem (PodGroupFault.ofLabel_eq_nil_iff.2 h)
    · exact .nsName hname (DnsLabel.exists_fault_iff.1 ⟨fault, hfault⟩)
  · rintro (⟨hq, hno⟩ | ⟨hq, hno⟩ | ⟨hq, he, hno⟩ | ⟨hname, hno⟩)
    · obtain ⟨x, hx⟩ := DnsLabel.exists_fault_iff.2 hno
      have hfault := PodGroup.mem_faults.2 (.inl ⟨x, hx, rfl⟩)
      exact ⟨_, Node.mem_findings.2 (.inl ⟨_, hq, _, hfault, rfl⟩), rfl, rfl⟩
    · obtain ⟨x, hx⟩ := DnsLabel.exists_fault_iff.2 hno
      have hfault := PodGroup.mem_faults.2 (.inr (.inl ⟨x, hx, rfl⟩))
      exact ⟨_, Node.mem_findings.2 (.inl ⟨_, hq, _, hfault, rfl⟩), rfl, rfl⟩
    · rw [← PodGroupFault.ofLabel_eq_nil_iff] at hno
      obtain ⟨x, hx⟩ := List.exists_mem_of_ne_nil _ hno
      obtain ⟨hsev, hfield⟩ := PodGroupFault.of_mem_ofLabel hx
      have hfault := PodGroup.mem_faults.2 (.inr (.inr (.inr ⟨_, he, hx⟩)))
      exact ⟨_, Node.mem_findings.2 (.inl ⟨_, hq, _, hfault, rfl⟩), hsev, hfield⟩
    · obtain ⟨x, hx⟩ := DnsLabel.exists_fault_iff.2 hno
      exact ⟨_, Node.mem_findings.2 (.inr ⟨_, hname, x, hx, rfl⟩), rfl, rfl⟩

/-- The name and the namespace of a pod group without errors are DNS labels. -/
theorem PodGroup.accepts_of_errorFree {n : Node} {q : PodGroup} (hq : n.body = .podGroup q)
    (h : ErrorFree n.findings) :
    DnsLabel.accepts q.name = true ∧ DnsLabel.accepts q.ns = true := by
  rw [errorFree_iff_forall] at h
  rw [DnsLabel.accepts_iff, DnsLabel.accepts_iff]
  constructor <;> by_contra hno
  · exact h _ (Node.exists_error_iff.2 (.name hq hno))
  · exact h _ (Node.exists_error_iff.2 (.ns hq hno))

/-- The name of a pod group without errors is its display name. -/
theorem displayName_of_errorFree {n : Node} {q : PodGroup} (hq : n.body = .podGroup q)
    (h : ErrorFree n.findings) : n.displayName = q.name := by
  have hne : q.name ≠ "" := DnsLabel.ne_empty_of_accepts (PodGroup.accepts_of_errorFree hq h).1
  simp [Node.displayName, Node.name, hq, hne]

/-- The labels of a pod group without errors are labels by the grammar. -/
theorem PodGroup.isLabel_of_errorFree {n : Node} {q : PodGroup} (hq : n.body = .podGroup q)
    (h : ErrorFree n.findings) {e : String × String} (he : e ∈ q.labels.entries) :
    IsLabel e.1 e.2 := by
  rw [errorFree_iff_forall] at h
  by_contra hno
  exact h _ (Node.exists_error_iff.2 (.label hq he hno))

/-! ## Errors at rules -/

/-- A rule whose ends are ids of nodes and whose port texts stand for ports. -/
@[mk_iff]
structure Edge.Sound (g : Snapshot) (e : Edge) : Prop where
  source : ∃ n ∈ g.nodes, n.id = e.source
  target : ∃ n ∈ g.nodes, n.id = e.target
  ports : ∀ p ∈ e.ports, IsPortText p.port

instance (g : Snapshot) (e : Edge) : Decidable (e.Sound g) :=
  decidable_of_iff (g.hasNode e.source ∧ g.hasNode e.target ∧
      (e.ports.all fun p => decide (IsPortText p.port)))
    (by simp [Edge.sound_iff, Snapshot.hasNode])

/-- The fields of a rule that name no node or stand for no port. -/
inductive Edge.Violates (g : Snapshot) (e : Edge) : String → Prop where
  | source : (∀ n ∈ g.nodes, n.id ≠ e.source) → e.Violates g "source"
  | target : (∀ n ∈ g.nodes, n.id ≠ e.target) → e.Violates g "target"
  | port {p : PortEntry} : p ∈ e.ports → ¬ IsPortText p.port → e.Violates g s!"ports[{p.id}].port"

theorem Edge.sound_iff_forall {g : Snapshot} {e : Edge} :
    e.Sound g ↔ ∀ field, ¬ e.Violates g field := by
  constructor
  · rintro ⟨⟨m, hm, hs⟩, ⟨n, hn, ht⟩, hports⟩ field (hno | hno | ⟨hp, hno⟩)
    · exact hno m hm hs
    · exact hno n hn ht
    · exact hno (hports _ hp)
  · intro h
    refine ⟨?_, ?_, fun p hp => ?_⟩ <;> by_contra hno
    · exact h _ (.source (by simpa using hno))
    · exact h _ (.target (by simpa using hno))
    · exact h _ (.port hp hno)

theorem Snapshot.hasNode_eq_false_iff {g : Snapshot} {id : String} :
    g.hasNode id = false ↔ ∀ n ∈ g.nodes, n.id ≠ id := by
  simp [Snapshot.hasNode]

theorem PortFault.severity_of_ofProtocol {p : PortEntry} {f : PortFault}
    (h : ofProtocol p = some f) : f.severity = .warning := by
  unfold ofProtocol at h
  split at h
  · obtain rfl := Option.some.inj h
    rfl
  · cases h

theorem PortFault.ofSyntax_isReadable (s : PortSyntax) :
    (∀ f, ofSyntax s = some f → f.severity ≠ .error) ↔ s.isReadable = true := by
  cases s <;> simp [ofSyntax, severity, PortSyntax.isReadable]

theorem PortEntry.faults_isPortText {p : PortEntry} :
    (∀ f ∈ p.faults, f.severity ≠ .error) ↔ IsPortText p.port := by
  rw [PortSyntax.isPortText_iff, ← PortFault.ofSyntax_isReadable]
  constructor
  · intro h f hf
    exact h f (by simp [PortEntry.faults, hf])
  · intro h f hf
    rcases List.mem_append.1 hf with hf | hf
    · exact h f (Option.mem_toList.1 hf)
    · rw [PortFault.severity_of_ofProtocol (Option.mem_toList.1 hf)]
      decide

theorem PortEntry.exists_error_iff {p : PortEntry} :
    (∃ f ∈ p.faults, f.severity = .error) ↔ ¬ IsPortText p.port := by
  rw [← PortEntry.faults_isPortText]
  push Not
  rfl

theorem Edge.exists_error_iff {g : Snapshot} {e : Edge} {field : String} :
    (∃ f ∈ e.findings g, f.severity = .error ∧ f.field = field) ↔
      e.kind = .rule ∧ e.Violates g field := by
  constructor
  · rintro ⟨f, hf, hsev, rfl⟩
    obtain ⟨hrule, ⟨hno, rfl⟩ | ⟨hno, rfl⟩ | ⟨p, hp, fault, hfault, rfl⟩⟩ := Edge.mem_findings.1 hf
    · exact ⟨hrule, .source (Snapshot.hasNode_eq_false_iff.1 hno)⟩
    · exact ⟨hrule, .target (Snapshot.hasNode_eq_false_iff.1 hno)⟩
    · exact ⟨hrule, .port hp (PortEntry.exists_error_iff.1 ⟨fault, hfault, hsev⟩)⟩
  · rintro ⟨hrule, hno | hno | ⟨hp, hno⟩⟩
    · have hmissing := Snapshot.hasNode_eq_false_iff.2 hno
      exact ⟨_, Edge.mem_findings.2 ⟨hrule, .inl ⟨hmissing, rfl⟩⟩, rfl, rfl⟩
    · have hmissing := Snapshot.hasNode_eq_false_iff.2 hno
      exact ⟨_, Edge.mem_findings.2 ⟨hrule, .inr (.inl ⟨hmissing, rfl⟩)⟩, rfl, rfl⟩
    · obtain ⟨fault, hfault, hsev⟩ := PortEntry.exists_error_iff.2 hno
      exact ⟨_, Edge.mem_findings.2 ⟨hrule, .inr (.inr ⟨_, hp, fault, hfault, rfl⟩)⟩, hsev, rfl⟩

theorem Edge.errorFree_iff {g : Snapshot} {e : Edge} (hrule : e.kind = .rule) :
    ErrorFree (e.findings g) ↔ e.Sound g := by
  rw [errorFree_iff_forall, Edge.sound_iff_forall]
  refine forall_congr' fun field => not_congr ?_
  rw [Edge.exists_error_iff, and_iff_right hrule]

end NetGraph
