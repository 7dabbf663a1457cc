import NetGraph.Gate
import NetGraph.Proofs.Compilation
import NetGraph.Proofs.Validation

/-!
# What the gate lets through

The gate resolves the element of an issue by its id alone, and an id means the first edge that bears
it.

* `Snapshot.sees` : the ids whose issues the gate for a target takes into account;
* `generate_of_podGroup` : behind the gate there is always a policy, so that the answer for a pod
  group is its manifest or the errors that were seen;
* `Snapshot.Hidden` : an edge at the target that the gate does not see, since an earlier edge that
  ends elsewhere bears the same id;
* `gate_verdict` : nothing but such an edge gets past the gate with an error;
* `blocked_or_rendered` : a pod group is never refused; the errors that were seen block it, and
  without one its policy comes with all that was seen.
-/

namespace NetGraph

/-! ## The issues that the gate sees -/

namespace Snapshot

/-- Whether the issues under the id `id` count for the manifest of `target`. -/
def sees (g : Snapshot) (target id : String) : Bool :=
  id = target || (g.edge? id).any (·.touches target)

/-- The findings that count for the manifest of `target`. -/
def seen (g : Snapshot) (target : String) : List Finding :=
  g.findings.filter fun f => g.sees target f.elementId

/-- An edge whose id is not the target's, and is first borne by an edge that ends elsewhere. -/
def Hidden (g : Snapshot) (target : String) (e : Edge) : Prop :=
  e.id ≠ target ∧ ∃ first, g.edge? e.id = some first ∧ first.touches target = false

theorem sees_self (g : Snapshot) (target : String) : g.sees target target = true := by
  simp [sees]

theorem edge?_isSome {g : Snapshot} {e : Edge} (he : e ∈ g.edges) :
    ∃ first, g.edge? e.id = some first := by
  rw [← Option.isSome_iff_exists, edge?, List.find?_isSome]
  exact ⟨e, he, by simp⟩

theorem sees_iff_not_hidden {g : Snapshot} {target : String} {e : Edge} (he : e ∈ g.edges) :
    g.sees target e.id = true ↔ ¬ g.Hidden target e := by
  obtain ⟨first, hfirst⟩ := edge?_isSome he
  simp only [sees, Hidden, hfirst, Option.any_some, Option.some.injEq, exists_eq_left',
    Bool.or_eq_true, decide_eq_true_eq, not_and, Bool.not_eq_false, ne_eq]
  exact or_iff_not_imp_left

/-- Where no two edges bear one id, no edge at the target is hidden. -/
theorem not_hidden_of_nodup {g : Snapshot} {target : String} {e : Edge}
    (hids : (g.edges.map (·.id)).Nodup) (he : e ∈ g.edges) (ht : e.touches target = true) :
    ¬ g.Hidden target e := by
  rintro ⟨-, first, hfirst, hno⟩
  have hmem := List.mem_of_find?_eq_some hfirst
  obtain rfl := List.inj_on_of_nodup_map hids hmem he (edge?_id hfirst)
  rw [ht] at hno
  cases hno

theorem node?_mem {g : Snapshot} {id : String} {n : Node} (h : g.node? id = some n) : n ∈ g.nodes :=
  List.mem_of_find?_eq_some h

/-- Where no two nodes bear one id, a look-up finds the node that bears it. -/
theorem node?_eq_some_iff_of_nodup {g : Snapshot} (hids : (g.nodes.map (·.id)).Nodup) {id : String}
    {n : Node} : g.node? id = some n ↔ n ∈ g.nodes ∧ n.id = id := by
  constructor
  · intro h
    exact ⟨node?_mem h, node?_id h⟩
  · rintro ⟨hn, rfl⟩
    obtain ⟨m, hm⟩ : ∃ m, g.node? n.id = some m := by
      rw [← Option.isSome_iff_exists, node?, List.find?_isSome]
      exact ⟨n, hn, by simp⟩
    rw [hm, List.inj_on_of_nodup_map hids (node?_mem hm) hn (node?_id hm)]

theorem mem_rulesTouching {g : Snapshot} {target : String} {e : Edge} :
    e ∈ g.rulesTouching target ↔ e ∈ g.edges ∧ e.kind = .rule ∧ e.touches target = true := by
  simp [rulesTouching, Edge.isRule]

theorem seen_errorFree_iff {g : Snapshot} {target : String} :
    ErrorFree (g.seen target) ↔
      (∀ n ∈ g.nodes, g.sees target n.id = true → ErrorFree n.findings) ∧
      ∀ e ∈ g.edges, ¬ g.Hidden target e → ErrorFree (e.findings g) := by
  constructor
  · intro h
    constructor
    · intro n hn hsees f hf
      refine h f (List.mem_filter.2 ⟨mem_findings.2 (.inl ⟨n, hn, hf⟩), ?_⟩)
      rwa [Node.elementId_of_mem_findings hf]
    · intro e he hid f hf
      refine h f (List.mem_filter.2 ⟨mem_findings.2 (.inr ⟨e, he, hf⟩), ?_⟩)
      rwa [Edge.elementId_of_mem_findings hf, sees_iff_not_hidden he]
  · rintro ⟨hnodes, hedges⟩ f hf
    obtain ⟨hf, hsees⟩ := List.mem_filter.1 hf
    rcases mem_findings.1 hf with ⟨n, hn, hf⟩ | ⟨e, he, hf⟩
    · rw [Node.elementId_of_mem_findings hf] at hsees
      exact hnodes n hn hsees f hf
    · rw [Edge.elementId_of_mem_findings hf, sees_iff_not_hidden he] at hsees
      exact hedges e he hsees f hf

/-- The gate for a target sees the target's own errors. -/
theorem errorFree_of_seen {g : Snapshot} {target : String} {n : Node}
    (hn : g.node? target = some n) (h : ErrorFree (g.seen target)) : ErrorFree n.findings := by
  refine (seen_errorFree_iff.1 h).1 n (node?_mem hn) ?_
  rw [node?_id hn, sees_self]

end Snapshot

theorem relevantIssues_validate (g : Snapshot) (target : String) :
    relevantIssues target g (validate g) = (g.seen target).map Finding.issue := by
  unfold relevantIssues validate Snapshot.seen
  rw [List.filter_map]
  congr 1
  refine List.filter_congr fun f _ => ?_
  simp [Snapshot.sees]

theorem filter_isError_eq_nil_iff {fs : List Finding} :
    (fs.map Finding.issue).filter (·.isError) = [] ↔ ErrorFree fs := by
  simp [ErrorFree]

theorem filter_not_isError_of_errorFree {fs : List Finding} (h : ErrorFree fs) :
    (fs.map Finding.issue).filter (fun i => !i.isError) = fs.map Finding.issue := by
  rw [List.filter_eq_self]
  intro i hi
  obtain ⟨f, hf, rfl⟩ := List.mem_map.1 hi
  simp [h f hf]

/-! ## The answer of the gate -/

/-- What the gate gives for the pod group `q` of the node `n`. -/
def Snapshot.manifest (g : Snapshot) (target : String) (n : Node) (q : PodGroup) : Generated where
  target := n.displayName
  fileName := n.fileName
  policy := q.policy g target
  yaml := (q.policy g target).render
  warnings := (g.seen target).map Finding.issue

/-- Without errors on its node, a pod group has a namespace, so that its policy exists. -/
theorem compile_of_errorFree {g : Snapshot} {target : String} {n : Node} {q : PodGroup}
    (hn : g.node? target = some n) (hq : n.body = .podGroup q) (h : ErrorFree n.findings) :
    compile target g = .ok (q.policy g target) := by
  have hns : q.ns ≠ "" := DnsLabel.ne_empty_of_accepts (PodGroup.accepts_of_errorFree hq h).2
  rw [compile_of_podGroup hn hq, if_neg hns]

theorem generate_of_podGroup {g : Snapshot} {target : String} {n : Node} {q : PodGroup}
    (hn : g.node? target = some n) (hq : n.body = .podGroup q) :
    generate (some target) g (validate g) =
      if ErrorFree (g.seen target) then .rendered (g.manifest target n q)
      else .blocked n.displayName (((g.seen target).map Finding.issue).filter (·.isError)) := by
  have hpod : n.isPodGroup = true := by simp [Node.isPodGroup, podGroup_eq_some_iff.2 hq]
  unfold generate
  simp only [hn, hpod, relevantIssues_validate, List.partition_eq_filter_filter,
    List.isEmpty_eq_false_iff, Bool.not_true, Bool.false_eq_true, if_false,
    Bool.not_eq_true', ne_eq, filter_isError_eq_nil_iff]
  by_cases h : ErrorFree (g.seen target)
  · have hnode := Snapshot.errorFree_of_seen hn h
    simp only [h, not_true, if_false, if_true, compile_of_errorFree hn hq hnode]
    have hw := filter_not_isError_of_errorFree h
    simp only [Function.comp_def, Snapshot.manifest, hw]
  · simp only [h, not_false_iff, if_true, if_false]

theorem generate_of_not_podGroup {g : Snapshot} {target : String} {n : Node}
    (hn : g.node? target = some n) (hq : n.podGroup? = none) (issues : List Issue) :
    generate (some target) g issues = .notAPodGroup target := by
  unfold generate
  simp only [hn, Node.isPodGroup, hq]
  rfl

theorem generate_of_node_eq_none {g : Snapshot} {target : String} (hn : g.node? target = none)
    (issues : List Issue) :
    generate (some target) g issues = .refused (.targetNotFound target) := by
  unfold generate
  simp only [hn]

theorem generate_eq_rendered_iff {g : Snapshot} {target : String} {m : Generated} :
    generate (some target) g (validate g) = .rendered m ↔
      ∃ n q, g.node? target = some n ∧ n.body = .podGroup q ∧ ErrorFree (g.seen target) ∧
        m = g.manifest target n q := by
  constructor
  · intro h
    rcases node_cases g target with hn | ⟨n, hn, hq⟩ | ⟨n, q, hn, hq⟩
    · rw [generate_of_node_eq_none hn] at h
      cases h
    · rw [generate_of_not_podGroup hn hq] at h
      cases h
    · rw [generate_of_podGroup hn hq] at h
      split at h
      · next hfree =>
        injection h with h
        exact ⟨n, q, hn, hq, hfree, h.symm⟩
      · cases h
  · rintro ⟨n, q, hn, hq, hfree, rfl⟩
    rw [generate_of_podGroup hn hq, if_pos hfree]

theorem isRendered_iff {g : Snapshot} {target : String} :
    (generate (some target) g (validate g)).isRendered = true ↔
      (∃ n q, g.node? target = some n ∧ n.body = .podGroup q) ∧ ErrorFree (g.seen target) := by
  constructor
  · intro h
    cases hout : generate (some target) g (validate g) with
    | rendered m =>
      obtain ⟨n, q, hn, hq, hfree, -⟩ := generate_eq_rendered_iff.1 hout
      exact ⟨⟨n, q, hn, hq⟩, hfree⟩
    | _ =>
      rw [hout] at h
      cases h
  · rintro ⟨⟨n, q, hn, hq⟩, hfree⟩
    rw [generate_eq_rendered_iff.2 ⟨n, q, hn, hq, hfree, rfl⟩]
    rfl

/-! ## The verdict -/

/--
A manifest for `target` is rendered iff the first node of this id is a pod group and no element that
the gate sees has an error. Then all nodes of this id are without errors, and every rule at the
target is sound iff the hidden ones are; none is hidden where no two edges bear one id.
-/
theorem gate_verdict (g : Snapshot) (target : String) :
    ((generate (some target) g (validate g)).isRendered = true ↔
      (∃ n q, g.node? target = some n ∧ n.body = .podGroup q) ∧
      (∀ n ∈ g.nodes, g.sees target n.id = true → ErrorFree n.findings) ∧
      ∀ e ∈ g.edges, ¬ g.Hidden target e → ErrorFree (e.findings g)) ∧
    (∀ e ∈ g.rulesTouching target, ErrorFree (e.findings g) ↔ e.Sound g) ∧
    ((generate (some target) g (validate g)).isRendered = true →
      (∀ n ∈ g.nodes, n.id = target → ErrorFree n.findings) ∧
      ((∀ e ∈ g.rulesTouching target, e.Sound g) ↔
        ∀ e ∈ g.rulesTouching target, g.Hidden target e → e.Sound g)) ∧
    ((g.edges.map (·.id)).Nodup → ∀ e ∈ g.rulesTouching target, ¬ g.Hidden target e) := by
  have hsound : ∀ e ∈ g.rulesTouching target, ErrorFree (e.findings g) ↔ e.Sound g :=
    fun e he => Edge.errorFree_iff (Snapshot.mem_rulesTouching.1 he).2.1
  refine ⟨?_, hsound, ?_, ?_⟩
  · rw [isRendered_iff, Snapshot.seen_errorFree_iff]
  · intro h
    obtain ⟨hnodes, hedges⟩ := Snapshot.seen_errorFree_iff.1 (isRendered_iff.1 h).2
    refine ⟨?_, fun hall e he _ => hall e he, ?_⟩
    · rintro n hn rfl
      exact hnodes n hn (g.sees_self n.id)
    · intro hhidden e he
      by_cases hid : g.Hidden target e
      · exact hhidden e he hid
      · have hmem := (Snapshot.mem_rulesTouching.1 he).1
        exact (hsound e he).1 (hedges e hmem hid)
  · intro hids e he
    obtain ⟨hmem, -, htouches⟩ := Snapshot.mem_rulesTouching.1 he
    exact Snapshot.not_hidden_of_nodup hids hmem htouches

/-- One rule between two pod groups, with a port range that a manifest cannot express. -/
def webToDb : Snapshot where
  nodes :=
    [{ id := "web", body := .podGroup ⟨"web", "shop", .singleton "app" "web", {}⟩ },
      { id := "db", body := .podGroup ⟨"db", "shop", .singleton "app" "db", {}⟩ }]
  edges := [{ id := "e", source := "web", target := "db", ports := [⟨"p", "80-90", .tcp⟩] }]

theorem gate_verdict_webToDb :
    (generate (some "db") webToDb (validate webToDb)).isRendered = true ∧
      webToDb.rulesTouching "db" ≠ [] ∧ ∀ e ∈ webToDb.rulesTouching "db", e.Sound webToDb := by
  have hrendered : (generate (some "db") webToDb (validate webToDb)).isRendered = true := by decide
  have hids : (webToDb.edges.map (·.id)).Nodup := by decide
  obtain ⟨-, -, hpass, hseen⟩ := gate_verdict webToDb "db"
  refine ⟨hrendered, by decide, (hpass hrendered).2.2 fun e he hid => ?_⟩
  exact absurd hid (hseen hids e he)

/-- The graph `webToDb` with port 0 on its rule, under the id of an earlier rule to elsewhere. -/
def webToDbHidden : Snapshot where
  nodes := webToDb.nodes ++ [{ id := "cache", body := .podGroup { name := "cache", ns := "shop" } }]
  edges :=
    [{ id := "e", source := "web", target := "cache" },
      { id := "e", source := "web", target := "db", ports := [⟨"p", "0", .tcp⟩] }]

/-- A rule at the target gets past the gate with an error. -/
theorem gate_passes_hidden_rule :
    (generate (some "db") webToDbHidden (validate webToDbHidden)).isRendered = true ∧
      ∃ e ∈ webToDbHidden.rulesTouching "db",
        ¬ ErrorFree (e.findings webToDbHidden) ∧ ¬ e.Sound webToDbHidden := by
  decide

/-! ## Blocked or rendered -/

theorem exists_relevant_error_iff {g : Snapshot} {target : String} :
    (∃ i ∈ relevantIssues target g (validate g), i.isError = true) ↔
      ¬ ErrorFree (g.seen target) := by
  simp [relevantIssues_validate, ErrorFree]

/--
Behind the gate the compiler refuses no pod group. The answer is the relevant errors if there are
any, and otherwise the compiled policy, with every relevant issue as a warning.
-/
theorem blocked_or_rendered {g : Snapshot} {target : String} {n : Node}
    (hn : g.node? target = some n) (hpod : n.isPodGroup = true) :
    (∀ reason, generate (some target) g (validate g) ≠ .refused reason) ∧
    ((∃ i ∈ relevantIssues target g (validate g), i.isError = true) →
      generate (some target) g (validate g) =
        .blocked n.displayName ((relevantIssues target g (validate g)).filter (·.isError))) ∧
    ((∀ i ∈ relevantIssues target g (validate g), i.isError = false) →
      ∃ p, compile target g = .ok p ∧
        generate (some target) g (validate g) =
          .rendered ⟨n.displayName, n.fileName, p, p.render,
            relevantIssues target g (validate g)⟩) := by
  obtain ⟨q, hq⟩ := Option.isSome_iff_exists.1 hpod
  rw [podGroup_eq_some_iff] at hq
  rw [generate_of_podGroup hn hq, exists_relevant_error_iff]
  refine ⟨?never, ?blocked, ?rendered⟩
  case never =>
    intro reason
    split <;> exact Outcome.noConfusion
  case blocked =>
    intro h
    rw [if_neg h, relevantIssues_validate]
  case rendered =>
    intro h
    have hfree : ErrorFree (g.seen target) := by
      by_contra hsome
      obtain ⟨i, hi, herror⟩ := exists_relevant_error_iff.2 hsome
      rw [h i hi] at herror
      cases herror
    have hnode := Snapshot.errorFree_of_seen hn hfree
    refine ⟨q.policy g target, compile_of_errorFree hn hq hnode, ?_⟩
    rw [if_pos hfree, relevantIssues_validate]
    rfl

/--
The graph `webToDb` with a second, unusable node under the id `db`, a rule to `db` on port 0, and a
rule with a warning that does not touch `db`.
-/
def webToDbTwice : Snapshot where
  nodes := webToDb.nodes ++ [{ id := "db", body := .ns "My DB" }]
  edges := webToDb.edges ++
    [{ id := "f", source := "web", target := "db", ports := [⟨"p", "0", .tcp⟩] },
      { id := "h", source := "web", target := "web", ports := [⟨"p", "1-2", .udp⟩] }]

theorem blocked_or_rendered_webToDbTwice :
    (∃ errors, generate (some "db") webToDbTwice (validate webToDbTwice) = .blocked "db" errors ∧
      errors.map (·.fieldKey) = [some "label", some "ports[p].port"]) ∧
    ∃ m, generate (some "db") webToDb (validate webToDb) = .rendered m ∧ m.warnings.length = 1 := by
  constructor
  · have hn : webToDbTwice.node? "db" =
        some { id := "db", body := .podGroup ⟨"db", "shop", .singleton "app" "db", {}⟩ } := rfl
    have herror : ∃ i ∈ relevantIssues "db" webToDbTwice (validate webToDbTwice),
        i.isError = true := by decide
    exact ⟨_, (blocked_or_rendered hn rfl).2.1 herror, by decide⟩
  · have hno : ∀ i ∈ relevantIssues "db" webToDb (validate webToDb), i.isError = false := by decide
    have hlength : (relevantIssues "db" webToDb (validate webToDb)).length = 1 := by decide
    obtain ⟨p, -, hp⟩ := (blocked_or_rendered rfl rfl).2.2 hno
    exact ⟨_, hp, hlength⟩

end NetGraph
