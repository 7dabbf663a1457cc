import NetGraph.Compilation

/-!
# What compilation yields

* `UsablePeer` : what the node of an id stands for at the other end of a rule, by kinds of nodes;
* `RulesFor` : the rules that a list of edges gives at one end, edge by edge: each edge gives one
  rule or is passed over;
* `ingressRules_rulesFor`, `egressRules_rulesFor` : the two passes give exactly these rules, and
  `RulesFor.unique` : no other list is one;
* `compile_eq_ok_iff` and its three companions : when there is a policy, and why not;
* `compile_spec` : the whole, with the sections and the directions that are written out.
-/

namespace NetGraph

/-! ## Peers -/

/--
The node of the id `id` is the peer `peer` in a policy of `policyNs`: a pod group by its labels,
with its namespace where that is another one, or a namespace that has a name.
-/
inductive UsablePeer (g : Snapshot) (policyNs id : String) : Peer → Prop where
  | podsHere {n : Node} {q : PodGroup} : g.node? id = some n → n.body = .podGroup q →
      q.ns = "" ∨ q.ns = policyNs → UsablePeer g policyNs id ⟨some q.labels, none⟩
  | podsElsewhere {n : Node} {q : PodGroup} : g.node? id = some n → n.body = .podGroup q →
      q.ns ≠ "" → q.ns ≠ policyNs →
      UsablePeer g policyNs id ⟨some q.labels, some (nsSelector q.ns)⟩
  | wholeNs {n : Node} {name : String} : g.node? id = some n → n.body = .ns name → name ≠ "" →
      UsablePeer g policyNs id ⟨none, some (nsSelector name)⟩

/-- The peer of an id, if its node can be one. -/
def Snapshot.peer? (g : Snapshot) (policyNs id : String) : Option Peer :=
  (g.node? id).bind (Node.peer? policyNs)

theorem peer_of_podGroup {n : Node} {q : PodGroup} (h : n.body = .podGroup q) (policyNs : String) :
    n.peer? policyNs = some
      ⟨some q.labels, if q.ns = "" ∨ q.ns = policyNs then none else some (nsSelector q.ns)⟩ := by
  unfold Node.peer?
  rw [h]
  by_cases hns : q.ns = "" ∨ q.ns = policyNs
  · rw [if_pos hns]
    rcases hns with hns | hns <;> simp [hns]
  · rw [if_neg hns]
    rw [not_or] at hns
    simp [hns.1, hns.2]

theorem peer_of_ns {n : Node} {name : String} (h : n.body = .ns name) (policyNs : String) :
    n.peer? policyNs = if name = "" then none else some ⟨none, some (nsSelector name)⟩ := by
  unfold Node.peer?
  rw [h]
  simp

theorem peer_eq_some_iff {g : Snapshot} {policyNs id : String} {peer : Peer} :
    g.peer? policyNs id = some peer ↔ UsablePeer g policyNs id peer := by
  rw [Snapshot.peer?, Option.bind_eq_some_iff]
  constructor
  · rintro ⟨n, hn, hp⟩
    cases hbody : n.body with
    | podGroup q =>
      rw [peer_of_podGroup hbody] at hp
      obtain rfl := Option.some.inj hp
      split
      · next hns => exact .podsHere hn hbody hns
      · next hns => exact .podsElsewhere hn hbody (not_or.1 hns).1 (not_or.1 hns).2
    | ns name =>
      rw [peer_of_ns hbody] at hp
      split at hp
      · cases hp
      · next hne =>
        obtain rfl := Option.some.inj hp
        exact .wholeNs hn hbody hne
    | unknown => simp [Node.peer?, hbody] at hp
  · rintro (⟨hn, hbody, hns⟩ | ⟨hn, hbody, hne, hother⟩ | ⟨hn, hbody, hne⟩)
    · exact ⟨_, hn, by rw [peer_of_podGroup hbody, if_pos hns]⟩
    · exact ⟨_, hn, by rw [peer_of_podGroup hbody, if_neg (not_or.2 ⟨hne, hother⟩)]⟩
    · exact ⟨_, hn, by rw [peer_of_ns hbody, if_neg hne]⟩

theorem policyRule_eq (g : Snapshot) (policyNs : String) (e : Edge) (far : String) :
    e.policyRule? g policyNs far =
      (g.peer? policyNs far).map fun peer => ⟨[peer], policyPorts e.ports⟩ := by
  unfold Edge.policyRule? Snapshot.peer?
  cases g.node? far with
  | none => rfl
  | some n => cases h : n.peer? policyNs <;> simp [h]

/-! ## Rules, edge by edge -/

/--
The rules of a policy in `policyNs` for the edges that have `target` at their end `near`, in the
order of the edges: a rule edge whose end `far` is a usable peer gives one rule with that peer and
the edge's ports, and every other edge is passed over.
-/
inductive RulesFor (g : Snapshot) (policyNs target : String) (near far : Edge → String) :
    List Edge → List PolicyRule → Prop where
  | nil : RulesFor g policyNs target near far [] []
  | drawn {e : Edge} {es : List Edge} {peer : Peer} {rules : List PolicyRule} :
      e.kind = .rule → near e = target → UsablePeer g policyNs (far e) peer →
      RulesFor g policyNs target near far es rules →
      RulesFor g policyNs target near far (e :: es) (⟨[peer], policyPorts e.ports⟩ :: rules)
  | passed {e : Edge} {es : List Edge} {rules : List PolicyRule} :
      ¬ (e.kind = .rule ∧ near e = target ∧ ∃ peer, UsablePeer g policyNs (far e) peer) →
      RulesFor g policyNs target near far es rules →
      RulesFor g policyNs target near far (e :: es) rules

section RulesFor
variable {g : Snapshot} {policyNs target : String} {near far : Edge → String}

theorem rulesFor_filterMap (es : List Edge) :
    RulesFor g policyNs target near far es
      ((es.filter fun e => e.isRule && near e = target).filterMap
        fun e => e.policyRule? g policyNs (far e)) := by
  induction es with
  | nil => exact .nil
  | cons e es ih =>
    rw [List.filter_cons]
    split
    · next h =>
      simp only [Edge.isRule, Bool.and_eq_true, decide_eq_true_eq] at h
      rw [List.filterMap_cons, policyRule_eq]
      cases hp : g.peer? policyNs (far e) with
      | none =>
        refine .passed ?_ ih
        rintro ⟨-, -, peer, hpeer⟩
        rw [← peer_eq_some_iff, hp] at hpeer
        cases hpeer
      | some peer => exact .drawn h.1 h.2 (peer_eq_some_iff.1 hp) ih
    · next h =>
      refine .passed ?_ ih
      rintro ⟨hrule, hnear, -⟩
      simp [Edge.isRule, hrule, hnear] at h

theorem RulesFor.unique {es : List Edge} {rules rules' : List PolicyRule}
    (h : RulesFor g policyNs target near far es rules)
    (h' : RulesFor g policyNs target near far es rules') : rules = rules' := by
  induction h generalizing rules' with
  | nil =>
    cases h'
    rfl
  | drawn hrule hnear hpeer _ ih =>
    cases h' with
    | drawn _ _ hpeer' hrest =>
      rw [← peer_eq_some_iff] at hpeer hpeer'
      rw [ih hrest, Option.some.inj (hpeer.symm.trans hpeer')]
    | passed hnot _ => exact absurd ⟨hrule, hnear, _, hpeer⟩ hnot
  | passed hnot _ ih =>
    cases h' with
    | drawn hrule hnear hpeer _ => exact absurd ⟨hrule, hnear, _, hpeer⟩ hnot
    | passed _ hrest => exact ih hrest

end RulesFor

theorem ingressRules_rulesFor (g : Snapshot) (target policyNs : String) :
    RulesFor g policyNs target Edge.target Edge.source g.edges (ingressRules g target policyNs) :=
  rulesFor_filterMap g.edges

theorem egressRules_rulesFor (g : Snapshot) (target policyNs : String) :
    RulesFor g policyNs target Edge.source Edge.target g.edges (egressRules g target policyNs) :=
  rulesFor_filterMap g.edges

/-! ## When there is a policy -/

theorem podGroup_eq_some_iff {n : Node} {q : PodGroup} :
    n.podGroup? = some q ↔ n.body = .podGroup q := by
  cases h : n.body <;> simp [Node.podGroup?, h]

theorem compile_of_podGroup {g : Snapshot} {target : String} {n : Node} {q : PodGroup}
    (hn : g.node? target = some n) (hq : n.body = .podGroup q) :
    compile target g =
      if q.ns = "" then .error (.missingNs target n.displayName) else .ok (q.policy g target) := by
  unfold compile
  simp only [hn, podGroup_eq_some_iff.2 hq, String.isEmpty_iff]
  rfl

theorem compile_of_not_podGroup {g : Snapshot} {target : String} {n : Node}
    (hn : g.node? target = some n) (hq : n.podGroup? = none) :
    compile target g = .error (.notAPodGroup target) := by
  unfold compile
  simp only [hn, hq]
  rfl

theorem compile_of_node_eq_none {g : Snapshot} {target : String} (hn : g.node? target = none) :
    compile target g = .error (.targetNotFound target) := by
  unfold compile
  simp only [hn]
  rfl

/-- What is found under an id: nothing, a node that is no pod group, or a pod group. -/
theorem node_cases (g : Snapshot) (target : String) :
    g.node? target = none ∨
      (∃ n, g.node? target = some n ∧ n.podGroup? = none) ∨
      ∃ n q, g.node? target = some n ∧ n.body = .podGroup q := by
  cases hn : g.node? target with
  | none => exact .inl rfl
  | some n =>
    refine .inr ?_
    cases hq : n.podGroup? with
    | none => exact .inl ⟨n, rfl, hq⟩
    | some q => exact .inr ⟨n, q, rfl, podGroup_eq_some_iff.1 hq⟩

theorem compile_eq_ok_iff {g : Snapshot} {target : String} {p : Policy} :
    compile target g = .ok p ↔
      ∃ n q, g.node? target = some n ∧ n.body = .podGroup q ∧ q.ns ≠ "" ∧
        p = q.policy g target := by
  constructor
  · intro h
    rcases node_cases g target with hn | ⟨n, hn, hq⟩ | ⟨n, q, hn, hq⟩
    · rw [compile_of_node_eq_none hn] at h
      cases h
    · rw [compile_of_not_podGroup hn hq] at h
      cases h
    · rw [compile_of_podGroup hn hq] at h
      split at h
      · cases h
      · next hns =>
        injection h with h
        exact ⟨n, q, hn, hq, hns, h.symm⟩
  · rintro ⟨n, q, hn, hq, hns, rfl⟩
    rw [compile_of_podGroup hn hq, if_neg hns]

/-- Why there is no policy. -/
inductive Refused (g : Snapshot) (target : String) : Refusal → Prop where
  | targetNotFound : g.node? target = none → Refused g target (.targetNotFound target)
  | notAPodGroup {n : Node} : g.node? target = some n → n.podGroup? = none →
      Refused g target (.notAPodGroup target)
  | missingNs {n : Node} {q : PodGroup} : g.node? target = some n → n.body = .podGroup q →
      q.ns = "" → Refused g target (.missingNs target n.displayName)

theorem compile_eq_error_iff {g : Snapshot} {target : String} {r : Refusal} :
    compile target g = .error r ↔ Refused g target r := by
  constructor
  · intro h
    rcases node_cases g target with hn | ⟨n, hn, hq⟩ | ⟨n, q, hn, hq⟩
    · rw [compile_of_node_eq_none hn] at h
      injection h with h
      exact h ▸ .targetNotFound hn
    · rw [compile_of_not_podGroup hn hq] at h
      injection h with h
      exact h ▸ .notAPodGroup hn hq
    · rw [compile_of_podGroup hn hq] at h
      split at h
      · next hns =>
        injection h with h
        exact h ▸ .missingNs hn hq hns
      · cases h
  · rintro (hn | ⟨hn, hq⟩ | ⟨hn, hq, hns⟩)
    · exact compile_of_node_eq_none hn
    · exact compile_of_not_podGroup hn hq
    · rw [compile_of_podGroup hn hq, if_pos hns]

/-! ## The policy -/

/--
A direction is present iff it has rules or is denied by default, and then holds the rules; so it is
present and empty where it is denied and has no rules.
-/
def IsSection (written : Option (List PolicyRule)) (rules : List PolicyRule) (denied : Bool) :
    Prop :=
  (written.isSome = true ↔ rules ≠ [] ∨ denied = true) ∧ ∀ rs, written = some rs → rs = rules

theorem isSection_section (rules : List PolicyRule) (denied : Bool) :
    IsSection (section? rules denied) rules denied := by
  unfold section?
  split
  · next h =>
    refine ⟨iff_of_true rfl ?_, fun rs hrs => (Option.some.inj hrs).symm⟩
    simpa using h
  · next h =>
    refine ⟨iff_of_false Bool.false_ne_true ?_, fun rs hrs => nomatch hrs⟩
    simpa using h

/-- The policy `p` of the pod group `q` that is found under the id `target`. -/
structure Governs (g : Snapshot) (target : String) (q : PodGroup) (p : Policy) : Prop where
  ingress : ∃ rules, RulesFor g q.ns target Edge.target Edge.source g.edges rules ∧
    IsSection p.ingress rules q.defaultDeny.ingress
  egress : ∃ rules, RulesFor g q.ns target Edge.source Edge.target g.edges rules ∧
    IsSection p.egress rules q.defaultDeny.egress
  sorted : p.directions.Pairwise fun a b => a.name < b.name
  ingress_mem : .ingress ∈ p.directions ↔ p.ingress.isSome = true
  egress_mem : .egress ∈ p.directions ↔ p.egress.isSome = true

theorem directionsOf_sorted (ingress egress : Option (List PolicyRule)) :
    (directionsOf ingress egress).Pairwise fun a b => a.name < b.name := by
  have hlt : Direction.egress.name < Direction.ingress.name := by
    rw [String.lt_iff]
    decide
  match ingress, egress with
  | none, none => exact .nil
  | none, some _ => exact List.pairwise_singleton _ _
  | some _, none => exact List.pairwise_singleton _ _
  | some _, some _ => exact List.pairwise_pair.2 hlt

theorem governs_policy (g : Snapshot) (target : String) (q : PodGroup) :
    Governs g target q (q.policy g target) where
  ingress := ⟨_, ingressRules_rulesFor g target q.ns, isSection_section _ _⟩
  egress := ⟨_, egressRules_rulesFor g target q.ns, isSection_section _ _⟩
  sorted := directionsOf_sorted _ _
  ingress_mem := by simp [PodGroup.policy, directionsOf, Option.isSome_iff_exists]
  egress_mem := by simp [PodGroup.policy, directionsOf, Option.isSome_iff_exists]

/--
There is a policy for `target` iff the first node of this id is a pod group with a namespace, and it
is the one that the rule edges at the target and the group's switches give; else the refusal says
what is missing.
-/
theorem compile_spec (g : Snapshot) (target : String) :
    ((∃ p, compile target g = .ok p) ↔
      ∃ n q, g.node? target = some n ∧ n.body = .podGroup q ∧ q.ns ≠ "") ∧
    (∀ r, compile target g = .error r ↔ Refused g target r) ∧
    ∀ n q p, g.node? target = some n → n.body = .podGroup q → compile target g = .ok p →
      Governs g target q p := by
  refine ⟨?_, fun r => compile_eq_error_iff, ?_⟩
  · constructor
    · rintro ⟨p, hp⟩
      obtain ⟨n, q, hn, hq, hns, -⟩ := compile_eq_ok_iff.1 hp
      exact ⟨n, q, hn, hq, hns⟩
    · rintro ⟨n, q, hn, hq, hns⟩
      exact ⟨_, compile_eq_ok_iff.2 ⟨n, q, hn, hq, hns, rfl⟩⟩
  · intro n q p hn hq hp
    obtain ⟨n', q', hn', hq', -, rfl⟩ := compile_eq_ok_iff.1 hp
    obtain rfl := Option.some.inj (hn.symm.trans hn')
    obtain rfl := NodeBody.podGroup.inj (hq.symm.trans hq')
    exact governs_policy g target q

/-- A pod group that is denied both directions by default. -/
def dbGroup : PodGroup where
  name := "db"
  ns := "shop"
  labels := .singleton "app" "db"
  defaultDeny := ⟨true, true⟩

/-- Two parallel rules to `db`, a loop there, a rule from nowhere and an edge that is no rule. -/
def busyDb : Snapshot where
  nodes := [{ id := "ns", body := .ns "shop" }, { id := "db", body := .podGroup dbGroup }]
  edges :=
    [{ id := "a", source := "ns", target := "db", ports := [⟨"p", "5432", .tcp⟩] },
      { id := "b", source := "ns", target := "db" },
      { id := "c", source := "db", target := "db" },
      { id := "d", source := "gone", target := "db" },
      { id := "e", kind := .unknown, source := "ns", target := "db" }]

theorem compile_spec_busyDb :
    ∃ p, compile "db" busyDb = .ok p ∧ Governs busyDb "db" dbGroup p := by
  obtain ⟨hok, -, hgoverns⟩ := compile_spec busyDb "db"
  have hn : busyDb.node? "db" = some { id := "db", body := .podGroup dbGroup } := by decide
  obtain ⟨p, hp⟩ := hok.2 ⟨_, dbGroup, hn, rfl, by decide⟩
  exact ⟨p, hp, hgoverns _ dbGroup p hn rfl hp⟩

end NetGraph
