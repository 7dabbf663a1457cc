import NetGraph.Proofs.Gate
import NetGraph.Proofs.Path

/-!
# The names that a manifest bears

* `fileStem_of_accepts` : a DNS label is a file name as it is, for neither the step to lower case
  nor the one that replaces characters changes any of it;
* `isFileName_yaml` : with the ending of a manifest it names one entry of a directory;
* `Generated.NamedAfter` : the names in and on a manifest are those of a pod group, and they are
  identifiers;
* `rendered_names` : behind the gate every manifest is so named, and its file, whatever directory it
  is put into, is an entry of that directory and shared only with pod groups of the same name.
-/

namespace NetGraph

/-! ## The name of a file -/

theorem isFileNameChar_of_isInner {c : Char} (h : DnsLabel.isInner c = true) :
    isFileNameChar c = true := by
  have hcases : (c.isLower = true ∨ c.isDigit = true) ∨ c = '-' := by
    simpa [DnsLabel.isInner, DnsLabel.isTip] using h
  rcases hcases with (hlower | hdigit) | rfl
  · simp [isFileNameChar, hlower]
  · simp [isFileNameChar, hdigit]
  · decide

theorem lowerAscii_of_isInner {c : Char} (h : DnsLabel.isInner c = true) :
    Text.lowerAscii c = [c] := by
  have hcode : c.toNat ≤ 122 ∧ ¬ (65 ≤ c.toNat ∧ c.toNat ≤ 90) := by
    rcases DnsLabel.isInner_iff.1 h with hlower | hdigit | rfl
    · omega
    · omega
    · decide
  have hupper : ¬ c.isUpper = true := by
    simpa [Char.isUpper, UInt32.le_iff_toNat_le] using hcode.2
  rw [Text.lowerAscii, if_neg (by omega), if_neg (by omega), Char.toLower_eq_of_not_isUpper hupper]

/-- Neither lower case nor replaced characters change a DNS label. -/
theorem fileStem_of_accepts {n : Node} (h : DnsLabel.accepts n.displayName = true) :
    n.fileStem = n.displayName := by
  have hinner := (DnsLabel.accepts_iff_rules.1 h).2.2.2
  have hlower : n.displayName.toList.flatMap Text.lowerAscii = n.displayName.toList := by
    rw [List.flatMap_congr fun c hc => lowerAscii_of_isInner (hinner c hc),
      List.flatMap_singleton']
  have hkept : n.displayName.toList.map (fun c => if isFileNameChar c then c else '_') =
      n.displayName.toList := by
    rw [List.map_congr_left fun c hc => if_pos (isFileNameChar_of_isInner (hinner c hc)),
      List.map_id']
  rw [Node.fileStem, hlower, hkept, String.ofList_toList]

theorem fileName_of_accepts {n : Node} (h : DnsLabel.accepts n.displayName = true) :
    n.fileName = n.displayName ++ ".yaml" := by
  have hne := DnsLabel.ne_empty_of_accepts h
  rw [Node.fileName, fileStem_of_accepts h, if_neg (by simpa using hne)]

/-- The name of a manifest's file has no character that stands between the parts of a path. -/
theorem not_separator_yaml {name : String} (h : DnsLabel.accepts name = true) :
    ∀ c ∈ (name ++ ".yaml").toList, c ≠ '/' ∧ c ≠ '\\' := by
  have hinner := (DnsLabel.accepts_iff_rules.1 h).2.2.2
  have hending : ∀ c ∈ ".yaml".toList, c ≠ '/' ∧ c ≠ '\\' := by simp
  intro c hc
  rw [String.toList_append] at hc
  rcases List.mem_append.1 hc with hc | hc
  · constructor <;> rintro rfl <;> exact absurd (hinner _ hc) (by decide)
  · exact hending c hc

theorem isFileName_yaml {name : String} (h : DnsLabel.accepts name = true) :
    IsFileName (name ++ ".yaml") := by
  have hlong : ∀ v : String, v.length < 5 → name ++ ".yaml" ≠ v := by
    rintro v hv rfl
    rw [String.length_append] at hv
    exact absurd hv (Nat.not_lt.2 (Nat.le_add_left 5 _))
  constructor
  case noSlash => exact fun hc => (not_separator_yaml h _ hc).1 rfl
  case nonempty => exact hlong "" (by decide)
  case notDots =>
    rintro (hdot | hdots)
    · exact hlong "." (by decide) hdot
    · exact hlong ".." (by decide) hdots

/-! ## The names of a manifest -/

/-- The names in and on the manifest are those of the pod group, and are well formed. -/
structure Generated.NamedAfter (m : Generated) (q : PodGroup) : Prop where
  name : IsDnsLabel q.name
  ns : IsDnsLabel q.ns
  labels : ∀ e ∈ m.policy.pods.entries, IsLabel e.1 e.2
  policyName : m.policy.name = "netpol-" ++ q.name
  policyNs : m.policy.ns = q.ns
  target : m.target = q.name
  fileName : m.fileName = q.name ++ ".yaml"

theorem manifest_namedAfter (g : Snapshot) (target : String) {n : Node} {q : PodGroup}
    (hq : n.body = .podGroup q) (h : ErrorFree n.findings) :
    (g.manifest target n q).NamedAfter q := by
  have ⟨hname, hns⟩ := PodGroup.accepts_of_errorFree hq h
  have hdisplay := displayName_of_errorFree hq h
  have hne := DnsLabel.ne_empty_of_accepts hname
  constructor
  case name => exact DnsLabel.accepts_iff.1 hname
  case ns => exact DnsLabel.accepts_iff.1 hns
  case labels => exact fun e he => PodGroup.isLabel_of_errorFree hq h he
  case policyName =>
    change policyNameStart ++ (if q.name.isEmpty then shortId target else q.name) = _
    rw [if_neg (by simpa using hne)]
    rfl
  case policyNs => rfl
  case target => exact hdisplay
  case fileName =>
    change n.fileName = _
    rw [fileName_of_accepts (hdisplay ▸ hname), hdisplay]

/--
A manifest behind the gate bears the names of its pod group, none of which is altered. Its file is
an entry of whatever directory it is put into, and is the file of another manifest iff their pod
groups have the same name.
-/
theorem rendered_names {g : Snapshot} {target : String} {m : Generated}
    (h : generate (some target) g (validate g) = .rendered m) :
    ∃ n q, g.node? target = some n ∧ n.body = .podGroup q ∧ n.fileStem = q.name ∧
      m.NamedAfter q ∧
      (∀ c ∈ m.fileName.toList, c ≠ '/' ∧ c ≠ '\\') ∧
      (∀ (t : FileTree) dir place, t.place (FilePath.inside dir m.fileName) = .ok place ↔
        FileTree.Admissible (FilePath.inside dir m.fileName) ∧
        ∃ here, t.directory dir = .ok here ∧ place = .name here m.fileName) ∧
      ∀ {g' target' m' n' q'}, generate (some target') g' (validate g') = .rendered m' →
        g'.node? target' = some n' → n'.body = .podGroup q' →
        (m'.fileName = m.fileName ↔ q'.name = q.name) := by
  obtain ⟨n, q, hn, hq, hfree, rfl⟩ := generate_eq_rendered_iff.1 h
  have hnode := Snapshot.errorFree_of_seen hn hfree
  have hnames := manifest_namedAfter g target hq hnode
  have hname := DnsLabel.accepts_iff.2 hnames.name
  have hdisplay := displayName_of_errorFree hq hnode
  refine ⟨n, q, hn, hq, ?_, hnames, ?_, ?_, ?_⟩
  · rw [fileStem_of_accepts (hdisplay ▸ hname), hdisplay]
  · rw [hnames.fileName]
    exact not_separator_yaml hname
  · intro t dir place
    rw [hnames.fileName]
    exact FileTree.place_inside_iff (isFileName_yaml hname)
  · intro g' target' m' n' q' h' hn' hq'
    obtain ⟨n'', q'', hn'', hq'', hfree', rfl⟩ := generate_eq_rendered_iff.1 h'
    obtain rfl := Option.some.inj (hn'.symm.trans hn'')
    obtain rfl := NodeBody.podGroup.inj (hq'.symm.trans hq'')
    have hnames' := manifest_namedAfter g' target' hq' (Snapshot.errorFree_of_seen hn' hfree')
    rw [hnames.fileName, hnames'.fileName, String.append_left_inj]

theorem rendered_names_webToDb :
    ∃ m q, generate (some "db") webToDb (validate webToDb) = .rendered m ∧
      m.NamedAfter q ∧ m.fileName = "db.yaml" := by
  have hn : webToDb.node? "db" = some webToDb.nodes[1] := by decide
  have hrendered := generate_eq_rendered_iff.2 ⟨_, _, hn, rfl, by decide, rfl⟩
  obtain ⟨n, q, hn', hq, -, hnames, -⟩ := rendered_names hrendered
  obtain rfl := Option.some.inj (hn.symm.trans hn')
  obtain rfl := NodeBody.podGroup.inj hq
  exact ⟨_, _, hrendered, hnames, hnames.fileName⟩

end NetGraph
