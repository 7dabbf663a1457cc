import NetGraph.Proofs.Comments
import NetGraph.Proofs.Gate
import NetGraph.Proofs.ManifestReading

/-!
# The text of a manifest

* `Finding.quoted` : the ids that a warning quotes as they are, of a port entry and of its edge;
* `woven_of_seen` : all else in a warning that the gate lets through is harmless, names and port
  texts included, since the gate has seen them without errors;
* `isPreamble_header_iff` : the header is made of comments iff the quoted ids stay within theirs;
* `manifest_text` : the text is the header and the manifest, and is then read as the policy.
-/

namespace NetGraph
open Yaml

/-! ## Harmless texts -/

theorem toNat_of_isInner {c : Char} (h : DnsLabel.isInner c = true) :
    0x20 ≤ c.toNat ∧ c.toNat ≤ 0x7E := by
  rcases DnsLabel.isInner_iff.1 h with h | h | rfl
  · omega
  · omega
  · decide

theorem harmless_of_isDnsLabel {v : String} (h : DnsLabel.accepts v = true) : Harmless v.toList :=
  harmless_of_toNat fun c hc => toNat_of_isInner ((DnsLabel.accepts_iff_rules.1 h).2.2.2 c hc)

theorem toNat_of_isDigit {c : Char} (h : c.isDigit = true) : 0x20 ≤ c.toNat ∧ c.toNat ≤ 0x7E := by
  rw [isDigit_iff] at h
  omega

theorem toNat_of_isAlpha {c : Char} (h : c.isAlpha = true) : 0x20 ≤ c.toNat ∧ c.toNat ≤ 0x7E := by
  rw [isAlpha_iff] at h
  omega

theorem harmless_of_isPortText {v : String} (h : IsPortText v) : Harmless v.toList := by
  rcases h with h | ⟨h, -, -⟩ | ⟨hv, ha, hb⟩ | ⟨h, -⟩
  · exact harmless_of_toNat fun c hc => toNat_of_isAlpha ((isAlpha_of_equalsAny h).2 c hc)
  · exact harmless_of_toNat fun c hc => toNat_of_isDigit ((isDigit_of_decimal h).2 c hc)
  · rw [hv, ← List.singleton_append, harmless_append, harmless_append]
    refine ⟨?_, by decide, ?_⟩
    · exact harmless_of_toNat fun c hc => toNat_of_isDigit ((isDigit_of_decimal ha).2 c hc)
    · exact harmless_of_toNat fun c hc => toNat_of_isDigit ((isDigit_of_decimal hb).2 c hc)
  · exact harmless_of_isDnsLabel (DnsLabel.accepts_iff.2 h)

/-! ## Warnings -/

/-- The ids that the warning of a finding quotes without a check. -/
def Finding.quoted : Finding → List String
  | port e p .ignored => [shortId e.id, p.id]
  | port _ p .range => [p.id]
  | _ => []

/-- The line of a warning, up to its end. -/
def Issue.warningLine (i : Issue) : String := s!"# WARNING: {i.message}{i.place}"

theorem warningLine_noLabels (n : Node) :
    (Finding.podGroup n .noLabels).issue.warningLine =
      "# WARNING: " ++ ("PodGroup '" ++ n.displayName ++ "'"
        ++ " has no labels; an empty podSelector matches every pod in its namespace")
        ++ " (field: labels)" := rfl

theorem warningLine_range (e : Edge) (p : PortEntry) :
    (Finding.port e p .range).issue.warningLine =
      "# WARNING: " ++ ("Port range '" ++ p.port
        ++ "' is not supported by NetworkPolicy and will be dropped at generation time")
        ++ (" (field: " ++ ("ports[" ++ p.id ++ "].port") ++ ")") := rfl

theorem warningLine_ignored (e : Edge) (p : PortEntry) :
    (Finding.port e p .ignored).issue.warningLine =
      "# WARNING: " ++ ("Protocol " ++ p.protocol.name ++ " (rule " ++ shortId e.id
        ++ ") ignores specific ports; " ++ ("port '" ++ p.port ++ "' has no effect"))
        ++ (" (field: " ++ ("ports[" ++ p.id ++ "].port") ++ ")") := rfl

theorem harmless_protocol (p : Protocol) : Harmless p.name.toList := by
  cases p <;> decide

/-- The end of a line that names the field of a port entry. -/
theorem woven_portField (id : String) :
    Woven [id.toList] (" (field: ".toList ++
      ("ports[".toList ++ (id.toList ++ ("].port".toList ++ ")".toList)))) := by
  refine .text (by decide) (.text (by decide) (.quote ?_ (.text (by decide)
    (.ofHarmless (by decide)))))
  exact GoesOn.append ⟨']', ".port".toList, by decide, by decide, by decide⟩ _

theorem woven_noLabels {n : Node} (h : Harmless n.displayName.toList) :
    Woven [] (Finding.podGroup n .noLabels).issue.warningLine.toList := by
  rw [warningLine_noLabels]
  simp only [String.toList_append, List.append_assoc]
  exact .text (by decide) (.text (by decide) (.text h (.text (by decide) (.text (by decide)
    (.ofHarmless (by decide))))))

theorem woven_range {p : PortEntry} (h : Harmless p.port.toList) (e : Edge) :
    Woven [p.id.toList] (Finding.port e p .range).issue.warningLine.toList := by
  rw [warningLine_range]
  simp only [String.toList_append, List.append_assoc]
  exact .text (by decide) (.text (by decide) (.text h (.text (by decide) (woven_portField p.id))))

theorem woven_ignored {p : PortEntry} (h : Harmless p.port.toList) (e : Edge) :
    Woven [(shortId e.id).toList, p.id.toList]
      (Finding.port e p .ignored).issue.warningLine.toList := by
  rw [warningLine_ignored]
  simp only [String.toList_append, List.append_assoc]
  refine .text (by decide) (.text (by decide) (.text (harmless_protocol p.protocol)
    (.text (by decide) (.quote ?_ (.text (by decide) (.text (by decide) (.text h (.text (by decide)
      (woven_portField p.id)))))))))
  -- the id of the edge stands in parentheses, so that its last line goes on
  exact GoesOn.append ⟨')', " ignores specific ports; ".toList, by decide, by decide, by decide⟩ _

/-- A warning behind the gate quotes nothing unchecked but ids. -/
theorem woven_of_seen {g : Snapshot} {target : String} (h : ErrorFree (g.seen target)) {f : Finding}
    (hf : f ∈ g.seen target) :
    Woven (f.quoted.map String.toList) f.issue.warningLine.toList := by
  have hsev := Finding.issue_isError.1 (h f hf)
  obtain ⟨hf, hsees⟩ := List.mem_filter.1 hf
  rcases Snapshot.mem_findings.1 hf with ⟨n, hn, hmem⟩ | ⟨e, he, hmem⟩
  · rw [Node.elementId_of_mem_findings hmem] at hsees
    have hfree := (Snapshot.seen_errorFree_iff.1 h).1 n hn hsees
    obtain ⟨q, hq, fault, -, rfl⟩ | ⟨name, -, fault, -, rfl⟩ := Node.mem_findings.1 hmem
    · cases fault with
      | noLabels =>
        refine woven_noLabels ?_
        rw [displayName_of_errorFree hq hfree]
        exact harmless_of_isDnsLabel (PodGroup.accepts_of_errorFree hq hfree).1
      | _ => exact absurd rfl hsev
    · exact absurd rfl hsev
  · rw [Edge.elementId_of_mem_findings hmem, Snapshot.sees_iff_not_hidden he] at hsees
    have hfree := (Snapshot.seen_errorFree_iff.1 h).2 e he hsees
    obtain ⟨hrule, ⟨-, rfl⟩ | ⟨-, rfl⟩ | ⟨p, hp, fault, hfault, rfl⟩⟩ := Edge.mem_findings.1 hmem
    · exact absurd rfl hsev
    · exact absurd rfl hsev
    · have hport := harmless_of_isPortText (((Edge.errorFree_iff hrule).1 hfree).ports p hp)
      cases fault with
      | range => exact woven_range hport e
      | ignored => exact woven_ignored hport e
      | _ => exact absurd rfl hsev

/-! ## The header -/

namespace Generated

theorem header_of_no_warnings {m : Generated} (h : m.warnings = []) :
    m.header.toList =
      [("# generated for: " ++ m.target).toList].flatMap (· ++ ['\n']) ++
        (documentMark ++ ['\n']) := by
  have hheader : m.header = "# generated for: " ++ m.target ++ "\n---\n" := by
    unfold header
    rw [h]
    rfl
  rw [hheader, String.toList_append, List.flatMap_singleton, List.append_assoc]
  rfl

theorem header_of_warnings {m : Generated} (h : m.warnings ≠ []) :
    m.header.toList =
      (m.warnings.map fun w => w.warningLine.toList).flatMap (· ++ ['\n']) ++
        ("# --- generated despite the warnings above ---".toList ++ ['\n']) := by
  have hheader : m.header = String.join (m.warnings.map fun w => w.warningLine ++ "\n") ++
      ("# --- generated despite the warnings above ---" ++ "\n") := by
    unfold header
    rw [if_neg (by simpa using h)]
    rfl
  rw [hheader, String.toList_append, String.toList_append, String.toList_join]
  simp only [List.flatMap_map, String.toList_append]
  rfl

end Generated

theorem Issue.warningLine_toList (i : Issue) :
    i.warningLine.toList = '#' :: (" WARNING: ".toList ++ i.message.toList ++ i.place.toList) := by
  have hline : i.warningLine = "# WARNING: " ++ i.message ++ i.place := rfl
  rw [hline, String.toList_append, String.toList_append]
  rfl

section Header
variable {g : Snapshot} {target : String} {n : Node} {q : PodGroup}

/-- The comment above a manifest without warnings names its pod group. -/
theorem woven_title (hn : g.node? target = some n) (hq : n.body = .podGroup q)
    (hfree : ErrorFree (g.seen target)) :
    Woven [] ("# generated for: " ++ n.displayName).toList := by
  have hnode := Snapshot.errorFree_of_seen hn hfree
  rw [String.toList_append, displayName_of_errorFree hq hnode]
  exact .text (by decide)
    (.ofHarmless (harmless_of_isDnsLabel (PodGroup.accepts_of_errorFree hq hnode).1))

/-- Only the quoted ids can break out of the comments above a manifest. -/
theorem isPreamble_header_iff (hn : g.node? target = some n) (hq : n.body = .podGroup q)
    (hfree : ErrorFree (g.seen target)) :
    IsPreamble (g.manifest target n q).header.toList ↔
      ∀ f ∈ g.seen target, ∀ id ∈ f.quoted, StaysComment id.toList := by
  by_cases hseen : g.seen target = []
  · have hwarnings : (g.manifest target n q).warnings = [] := by simp [Snapshot.manifest, hseen]
    have htitle := woven_title hn hq hfree
    rw [Generated.header_of_no_warnings hwarnings,
      isPreamble_iff ?_ (by decide) (by decide) (.inr rfl), hseen]
    · refine iff_of_true (List.forall_mem_singleton.2 ?_) (List.forall_mem_nil _)
      rw [String.toList_append] at htitle ⊢
      exact htitle.forall_isComment_iff.2 (List.forall_mem_nil _)
    · refine List.forall_mem_singleton.2 (htitle.exists_concat ?_)
      simp
  · have hwarnings : (g.manifest target n q).warnings ≠ [] := by
      simpa [Snapshot.manifest] using hseen
    rw [Generated.header_of_warnings hwarnings]
    refine (isPreamble_iff ?_ (by decide) (by decide) (.inl (by decide))).trans ?_
    · simp only [Snapshot.manifest, List.map_map, List.forall_mem_map]
      intro f hf
      refine (woven_of_seen hfree hf).exists_concat ?_
      rw [Issue.warningLine_toList]
      exact List.cons_ne_nil _ _
    · simp only [Snapshot.manifest, List.map_map, List.forall_mem_map]
      refine forall₂_congr fun f hf => ?_
      have hwoven := woven_of_seen hfree hf
      rw [Issue.warningLine_toList] at hwoven
      rw [Function.comp_apply, Issue.warningLine_toList, hwoven.forall_isComment_iff,
        List.forall_mem_map]

theorem allAllowed_header (hn : g.node? target = some n) (hq : n.body = .podGroup q)
    (hfree : ErrorFree (g.seen target))
    (hids : ∀ f ∈ g.seen target, ∀ id ∈ f.quoted, AllAllowed id.toList) :
    AllAllowed (g.manifest target n q).header.toList := by
  by_cases hseen : g.seen target = []
  · rw [Generated.header_of_no_warnings (by simp [Snapshot.manifest, hseen])]
    refine allAllowed_lines (List.forall_mem_singleton.2 ?_) (by decide)
    exact (woven_title hn hq hfree).allAllowed (List.forall_mem_nil _)
  · rw [Generated.header_of_warnings (by simpa [Snapshot.manifest] using hseen)]
    refine allAllowed_lines ?_ (by decide)
    simp only [Snapshot.manifest, List.map_map, List.forall_mem_map]
    intro f hf
    exact (woven_of_seen hfree hf).allAllowed (List.forall_mem_map.2 (hids f hf))

end Header

/-! ## The whole text -/

/-- The reader passes over comments above `text`, and over the mark of a document below them. -/
def SkipsPreamble (parse : String → Document) (text : String) : Prop :=
  ∀ pre : String, IsPreamble pre.toList → AllAllowed pre.toList →
    (parse (pre ++ text)).unplaced = (parse text).unplaced

/--
The text of a rendered manifest is its header and the policy as written. The header is made of
comments iff the ids that the warnings quote stay within theirs. A reader that skips comments and
reads back what was written then finds the policy, if a document may hold the characters of these
ids.
-/
theorem manifest_text {g : Snapshot} {target : String} {m : Generated}
    (h : generate (some target) g (validate g) = .rendered m) :
    m.text = m.header ++ m.yaml ∧ m.yaml = m.policy.render ∧
    (IsPreamble m.header.toList ↔
      ∀ f ∈ g.seen target, ∀ id ∈ f.quoted, StaysComment id.toList) ∧
    ∀ parse : String → Document, SkipsPreamble parse m.yaml →
      (parse m.yaml).unplaced = m.policy.value.document →
      (∀ f ∈ g.seen target, ∀ id ∈ f.quoted, StaysComment id.toList ∧ AllAllowed id.toList) →
      (parse m.text).read Policy.read = .ok m.policy := by
  obtain ⟨n, q, hn, hq, hfree, rfl⟩ := generate_eq_rendered_iff.1 h
  refine ⟨rfl, rfl, isPreamble_header_iff hn hq hfree, ?_⟩
  intro parse hskips hback hids
  have hpreamble := (isPreamble_header_iff hn hq hfree).2 fun f hf id hid => (hids f hf id hid).1
  have hallowed := allAllowed_header hn hq hfree fun f hf id hid => (hids f hf id hid).2
  refine Policy.read_document ?_
  rw [← hback]
  exact hskips _ hpreamble hallowed

/-- Reads what a text ends with, if it is the manifest, and else the text. -/
def parseEnd (m : Generated) (text : String) : Document :=
  if m.yaml.toList <:+ text.toList then m.policy.value.document else Document.ofText text

theorem parseEnd_append (m : Generated) (pre : String) :
    (parseEnd m (pre ++ m.yaml)).unplaced = m.policy.value.document := by
  rw [parseEnd, if_pos (by rw [String.toList_append]; exact List.suffix_append _ _),
    Value.unplaced_document]

theorem parseEnd_yaml (m : Generated) : (parseEnd m m.yaml).unplaced = m.policy.value.document := by
  rw [parseEnd, if_pos (List.suffix_refl _), Value.unplaced_document]

theorem manifest_text_webToDb :
    ∃ m, generate (some "db") webToDb (validate webToDb) = .rendered m ∧ m.warnings ≠ [] ∧
      IsPreamble m.header.toList ∧ (parseEnd m m.text).read Policy.read = .ok m.policy := by
  have hn : webToDb.node? "db" = some webToDb.nodes[1] := by decide
  have hseen : webToDb.seen "db" ≠ [] := by decide
  have hids : ∀ f ∈ webToDb.seen "db", ∀ id ∈ f.quoted,
      StaysComment id.toList ∧ AllAllowed id.toList := by decide
  have hrendered := generate_eq_rendered_iff.2 ⟨_, _, hn, rfl, by decide, rfl⟩
  obtain ⟨-, -, hheader, hread⟩ := manifest_text hrendered
  refine ⟨_, hrendered, ?_, hheader.2 fun f hf id hid => (hids f hf id hid).1, ?_⟩
  · simpa [Snapshot.manifest] using hseen
  · refine hread _ ?_ (parseEnd_yaml _) hids
    intro pre _ _
    rw [parseEnd_append, parseEnd_yaml]

/-- The graph `webToDb` with a line break in the id of its port entry. -/
def webToDbBroken : Snapshot where
  nodes := webToDb.nodes
  edges :=
    [{ id := "e", source := "web", target := "db",
       ports := [⟨"p\nkind: Secret", "80-90", .tcp⟩] }]

/-- The rest of such an id is a line of the manifest, so that its header is not made of comments. -/
theorem header_breaks_comment :
    ∃ m, generate (some "db") webToDbBroken (validate webToDbBroken) = .rendered m ∧
      ¬ IsPreamble m.header.toList ∧ "kind: Secret].port)".toList ∈ lines m.header.toList := by
  have hn : webToDbBroken.node? "db" = some webToDb.nodes[1] := by decide
  have hfree : ErrorFree (webToDbBroken.seen "db") := by decide
  have hbroken : ¬ ∀ f ∈ webToDbBroken.seen "db", ∀ id ∈ f.quoted, StaysComment id.toList := by decide
  refine ⟨_, generate_eq_rendered_iff.2 ⟨_, _, hn, rfl, hfree, rfl⟩, ?_, by decide +kernel⟩
  exact (isPreamble_header_iff hn rfl hfree).not.2 hbroken

end NetGraph
