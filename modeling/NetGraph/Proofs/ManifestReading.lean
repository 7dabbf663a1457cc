import NetGraph.Manifest.Reading
import NetGraph.Proofs.Reading

/-!
# A manifest is read back as its policy

One lemma for each part of a manifest, from the labels up, with the levels of collections that its
reading takes; `Policy.reads` is the whole, `Policy.read_document` its document and
`Policy.read_render` its text.
-/

namespace NetGraph
open Yaml Yaml.Reader

/-! ## Labels and selectors -/

theorem Labels.reads (l : Labels) : Reads Labels.read 1 l.value l := by
  have hsteps : ∀ (es : List (String × String)) (l : Labels),
      Steps (fun l spot k below v => do
          let key ← string spot k
          return l.insert key (← string below v)) 0
        l (es.map fun e => (e.1, Value.text e.2)) (es.foldl (fun l e => l.insert e.1 e.2) l) := by
    intro es
    induction es with
    | nil => exact .nil
    | cons e es ih =>
      intro l
      refine .cons ?_ (ih (l.insert e.1 e.2))
      intro spot k n hdepth hk hn
      have hkey := reads_string e.1 spot k hdepth hk
      have hvalue := reads_string e.2 (spot.step (.key e.1)) n hdepth hn
      exact hkey.bind (hvalue.bind (yields_pure _))
  have hlabels := hsteps l.entries ∅
  change Steps _ _ _ _ (Labels.ofList l.entries) at hlabels
  rw [Labels.ofList_entries] at hlabels
  exact hlabels.entries (yields_pure l)

theorem selector_reads (l : Labels) : Reads readSelector 2 (selectorValue l) l := by
  have hfill : Fills (fun _ _ spot v => Labels.read spot v) 1 (∅ : Labels)
      [("matchLabels", l.value)] l := .cons l.reads (.nil l)
  exact hfill.record (by decide) (by simp) (by simp)

/-! ## Ports -/

section Ports
variable {levels : Nat}

/-- Of a style it counts only whether it is plain. -/
theorem scalarFound_congr {tag : Option Tag} {style style' : Style} {s : String}
    (h : style' = .plain ↔ style = .plain) :
    Yaml.Node.scalarFound tag style' s = Yaml.Node.scalarFound tag style s := by
  simp only [Yaml.Node.scalarFound, h]

theorem readContent_scalar {m : Mark} {style : Style} {s : String} {spot : Spot} {found : Found}
    (h : Yaml.Node.scalarFound none style s = .ok found)
    (hint : ∀ n, found = .int n → isBelow64 n = false ∧ isAbove64 n = false) :
    Yields (readContent (levels + 1) spot (.scalar { mark := m } style s)) () := by
  refine Yields.bind (a := Yaml.Node.scalar { mark := m } style s) (fun _ _ => rfl) ?_
  refine Yields.placed ?_ m spot
  simp only [h]
  split
  · next hf => cases hf
  · next n hf =>
    obtain rfl := Except.ok.inj hf
    obtain ⟨hlow, hhigh⟩ := hint n rfl
    rw [hlow, hhigh]
    exact yields_pure ()
  · exact yields_pure ()

theorem readPortValue_scalar {v : Value} {style : Style} {s : String} {found : Found}
    {p : PortValue} (hv : v.node = .scalar { mark := {} } style s)
    (h : Yaml.Node.scalarFound none style s = .ok found)
    (hint : ∀ n, found = .int n → isBelow64 n = false ∧ isAbove64 n = false)
    (hp : portValueOf? none style s = some p) : Reads readPortValue levels v p := by
  intro spot n _ hn
  rw [hv] at hn
  obtain ⟨m, style', rfl, hstyle⟩ := Yaml.Node.eq_scalar_of_shape hn
  rw [← scalarFound_congr hstyle] at h
  rw [portValueOf?, ← scalarFound_congr hstyle, ← portValueOf?] at hp
  refine Yields.bind (a := Yaml.Node.scalar { mark := m } style' s) (fun _ _ => rfl) ?_
  refine (readContent_scalar h hint).bind ?_
  simp only [hp]
  exact yields_pure p

/-- A text is found to be one, in whatever style it is written. -/
theorem scalarFound_text (s : String) :
    Yaml.Node.scalarFound none (Style.of s) s = .ok (.text s) := by
  unfold Yaml.Node.scalarFound
  by_cases hstyle : Style.of s = .plain
  · simp only [hstyle, if_true, Yaml.Node.plainFound, resolve_of_style hstyle]
    rfl
  · simp only [hstyle, if_false]
    rfl

theorem scalarFound_nat {n : Nat} (hn : n < Nat.pow 2 128) :
    Yaml.Node.scalarFound none .plain (toString n) = .ok (.int n) := by
  simp only [Yaml.Node.scalarFound, Yaml.Node.plainFound, PlainValue.resolve_toString hn, if_true]
  rfl

theorem PortValue.reads (p : PortValue) : Reads readPortValue levels p.value p := by
  cases p with
  | number n =>
    have hlt : n.toNat < 65536 := n.toNat_lt
    have hn : n.toNat < Nat.pow 2 128 := Nat.lt_of_lt_of_le hlt (by decide)
    refine readPortValue_scalar (by rw [PortValue.value, Value.node]) (scalarFound_nat hn) ?_ ?_
    · intro k hk
      obtain rfl := Found.int.inj hk
      simp only [isBelow64, isAbove64, decide_eq_false_iff_not]
      omega
    · have hbounds : (0 : Int) ≤ n.toNat ∧ (n.toNat : Int) < 65536 := by omega
      simp only [portValueOf?, scalarFound_nat hn, if_pos hbounds, Int.toNat_natCast,
        UInt16.ofNat_toNat]
  | name s =>
    refine readPortValue_scalar (by rw [PortValue.value, Value.node]) (scalarFound_text s) ?_ ?_
    · exact fun k hk => nomatch hk
    · simp only [portValueOf?, scalarFound_text]

theorem Transport.reads (t : Transport) : Reads readTransport levels (.text t.name) t :=
  reads_choice t.ofName?_name

theorem PortValue.optional_reads (v : PortValue) :
    Reads (optional readPortValue) levels v.value (some v) := by
  have h : Reads readPortValue levels v.value v := v.reads
  cases v with
  | number n =>
    refine Reads.optional_nat h (Nat.lt_of_lt_of_le n.toNat_lt ?_)
    decide
  | name s => exact Reads.optional_text h

end Ports

theorem PolicyPort.reads (p : PolicyPort) : Reads readPolicyPort 1 p.value p := by
  unfold readPolicyPort PolicyPort.value
  refine Fills.record (.append (b := { protocol := p.protocol })
    (.optional (fun h => by rw [h]) fun t h => ?_) (.optional ?_ fun v h => ?_)) (by decide) ?_ ?_
  · rw [h]
    have ht : Reads (optional readTransport) 0 (.text t.name) (some t) := .optional_text t.reads
    exact ht.field (fun t => ({ protocol := t } : PolicyPort)) fun _ _ => if_pos rfl
  · intro h
    rw [← h]
  · obtain ⟨protocol, port⟩ := p
    subst h
    exact v.optional_reads.field (fun v => (⟨protocol, v⟩ : PolicyPort)) fun _ _ =>
      if_neg (by decide)
  · cases p.protocol <;> cases p.port <;> simp
  · simp

/-! ## Rules -/

theorem Peer.reads (p : Peer) : Reads readPeer 3 p.value p := by
  unfold readPeer Peer.value
  refine Fills.record (.append (b := { pods := p.pods })
    (.optional (fun h => by rw [h]) fun l h => ?_) (.optional ?_ fun l h => ?_)) (by decide) ?_ ?_
  · rw [h]
    have hl := Reads.optional_map (selector_reads l)
    exact hl.field (fun l => ({ pods := l } : Peer)) fun _ _ => if_pos rfl
  · intro h
    rw [← h]
  · obtain ⟨pods, namespaces⟩ := p
    subst h
    have hl := Reads.optional_map (selector_reads l)
    exact hl.field (fun l => (⟨pods, l⟩ : Peer)) fun _ _ => if_neg (by decide)
  · cases p.pods <;> cases p.namespaces <;> simp
  · simp

theorem PolicyRule.reads (d : Direction) (r : PolicyRule) :
    Reads (readPolicyRule d) 5 (r.value d) r := by
  have hpeers : Reads (sequence readPeer) 4 (.seq (r.peers.map Peer.value)) r.peers :=
    .sequence fun p _ => p.reads
  have hports : Reads (sequence readPolicyPort) 4 (.seq (r.ports.map PolicyPort.value)) r.ports :=
    (Reads.sequence fun p _ => p.reads).mono (by decide)
  have hother : "ports" ≠ d.peersKey := by cases d <;> decide
  unfold readPolicyRule PolicyRule.value
  refine Fills.record (.cons (b := { peers := r.peers }) ?_ ?_) ?_ ?_ ?_
  · exact hpeers.field (fun ps => ({ peers := ps } : PolicyRule)) fun _ _ => if_pos rfl
  · split
    · next hnil =>
      obtain ⟨peers, ports⟩ := r
      obtain rfl := List.isEmpty_iff.1 hnil
      exact .nil _
    · refine .cons ?_ (.nil _)
      exact hports.field (fun ps => (⟨r.peers, ps⟩ : PolicyRule)) fun _ _ => if_neg hother
  · simpa using hother.symm
  · split <;> simp
  · simp

/-! ## The policy -/

theorem section_reads (d : Direction) (rules : List PolicyRule) :
    Reads (readSection d) 6 (.seq (rules.map (PolicyRule.value d))) (some rules) :=
  Reads.optional_seq (.sequence fun r _ => r.reads d)

theorem Direction.reads (d : Direction) {levels : Nat} :
    Reads readDirection levels (.text d.name) d :=
  reads_choice d.ofName?_name

namespace Policy

theorem reads_metadata (p : Policy) (name ns : String) :
    Reads p.readMetadata 1 (.map [("name", .text name), ("namespace", .text ns)])
      { p with name, ns } := by
  unfold readMetadata
  refine Fills.record (.cons (b := { p with name }) ?_ (.cons ?_ (.nil _))) (by decide)
    (by simp) (by simp)
  · exact (reads_string name).field (fun s => { p with name := s }) fun _ _ => if_pos rfl
  · refine (reads_string ns).field (fun s => { p with name, ns := s }) fun _ _ => ?_
    exact if_neg (by decide)

/-- What the spec of `p` adds to `q`. -/
theorem reads_spec (p q : Policy) (hdirections : q.directions = []) (hingress : q.ingress = none)
    (hegress : q.egress = none) :
    Reads q.readSpec 7 p.specValue
      { q with
        pods := p.pods, directions := p.directions, ingress := p.ingress, egress := p.egress } := by
  have hdirs : Reads (sequence readDirection) 6
      (.seq (p.directions.map fun d => .text d.name)) p.directions :=
    .sequence fun d _ => d.reads
  unfold readSpec specValue sectionEntry
  refine Fills.record (.append
    (b := { q with pods := p.pods, directions := p.directions, ingress := p.ingress })
    (.append (b := { q with pods := p.pods, directions := p.directions })
      (.cons (b := { q with pods := p.pods }) ?_ ?_) (.optional ?_ fun rs h => ?_))
    (.optional ?_ fun rs h => ?_)) (by decide) ?_ ?_
  · have hpods := (selector_reads p.pods).mono (by decide : 2 ≤ 6)
    exact hpods.field (fun l => { q with pods := l }) fun _ _ => if_pos rfl
  · split
    · next hnil =>
      rw [List.isEmpty_iff.1 hnil, ← hdirections]
      exact .nil _
    · refine .cons ?_ (.nil _)
      refine hdirs.field (fun ds => { q with pods := p.pods, directions := ds }) fun _ _ => ?_
      rw [if_neg (by decide), if_pos rfl]
  · intro h
    rw [h, ← hingress]
  · rw [h]
    refine (section_reads .ingress rs).field
      (fun o => { q with pods := p.pods, directions := p.directions, ingress := o }) fun _ _ => ?_
    rw [if_neg (by decide), if_neg (by decide), if_pos rfl]
  · intro h
    rw [h, ← hegress]
  · rw [h]
    refine (section_reads .egress rs).field (fun o =>
      (⟨q.apiVersion, q.kind, q.name, q.ns, p.pods, p.directions, p.ingress, o⟩ : Policy))
      fun _ _ => ?_
    rw [if_neg (by decide), if_neg (by decide), if_neg (by decide)]
  · cases p.directions <;> cases p.ingress <;> cases p.egress <;> simp [List.sublist_cons_iff]
  · simp

theorem reads (p : Policy) : Reads read 8 p.value p := by
  unfold read value
  refine Fills.record
    (.cons (b := { blank with apiVersion := p.apiVersion }) ?_
      (.cons (b := { blank with apiVersion := p.apiVersion, kind := p.kind }) ?_
        (.cons (b := ⟨p.apiVersion, p.kind, p.name, p.ns, ∅, [], none, none⟩) ?_
          (.cons ?_ (.nil _))))) (by decide) (by simp) (by simp)
  · exact (reads_string p.apiVersion).field (fun s => { blank with apiVersion := s }) fun _ _ =>
      if_pos rfl
  · refine (reads_string p.kind).field
      (fun s => { blank with apiVersion := p.apiVersion, kind := s }) fun _ _ => ?_
    rw [if_neg (by decide), if_pos rfl]
  · have hmetadata := reads_metadata { blank with apiVersion := p.apiVersion, kind := p.kind }
      p.name p.ns
    refine (hmetadata.mono (by decide : 1 ≤ 7)).congr fun _ _ => ?_
    rw [if_neg (by decide), if_neg (by decide), if_pos rfl]
  · have hspec := reads_spec p ⟨p.apiVersion, p.kind, p.name, p.ns, ∅, [], none, none⟩ rfl rfl rfl
    refine hspec.congr fun _ _ => ?_
    rw [if_neg (by decide), if_neg (by decide), if_neg (by decide)]

/-- A document that is the tree of a policy's manifest is read as this policy. -/
theorem read_document {p : Policy} {d : Document} (hd : d.unplaced = p.value.document) :
    d.read read = .ok p :=
  p.reads.document (by decide) (by rw [← Document.shape_unplaced, hd])

/--
The text of a policy is read as this policy, if it is read back as its tree. What is absent, empty and
filled, and what is a number and a name of digits, are told apart.
-/
theorem read_render {parse : String → Document} {p : Policy} (h : ReadsBack parse p.value) :
    (parse p.render).read read = .ok p :=
  p.reads.document (by decide) h

/-- Texts that spell a number, null and a mapping, and sections and selectors with nothing in them. -/
def misleading : Policy where
  apiVersion := "1"
  kind := "null"
  name := ""
  ns := "a: b"
  pods := .singleton "k" "~"
  directions := []
  ingress := some []
  egress := some [
    ⟨[⟨none, some ∅⟩], [⟨none, some (.number 80)⟩, ⟨some .sctp, some (.name "80")⟩]⟩]

theorem read_render_misleading :
    ReadsBack Document.ofText misleading.value ∧ ofYaml misleading.render = .ok misleading := by
  have h : ReadsBack Document.ofText misleading.value := by decide +kernel
  exact ⟨h, read_render h⟩

end Policy
end NetGraph
