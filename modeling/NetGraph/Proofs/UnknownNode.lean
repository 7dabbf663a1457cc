import NetGraph.Proofs.AddedNode
import NetGraph.Proofs.ForeignNode
import NetGraph.Proofs.SameReading

/-!
# Graphs with a node of an unknown kind

A node is added to the list of nodes of a document. Around the list all is read as before, since the
readers of graphs are steady.

* `Node.steady_read`, `Edge.steady_read`, `Snapshot.steady_set` : the readers of graphs are steady;
* `carries_list`, `carries_entries`, `carries_read` : the list of nodes, the entries of the graph and
  the graph, with a node that is read whatever the document is;
* `ran_node` : a node that is added is read if the document with it is;
* `unknown_node_loads` : a node of an unknown kind is read along with the graph if it fits, and the
  document with it is not read if it does not.
-/

namespace NetGraph
open Yaml Yaml.Reader

/-! ## The readers of graphs -/

theorem steady_labels : Steady Labels.read := by
  refine steady_entries "a map" _ ?_ fun _ _ _ => carries_pure rfl
  intro l ρ A d d' hd spot spot' below below' hdepth hbelow k k' v v' hk hv
  refine (steady_string.carries hd hdepth hk).bind fun s s' hs => ?_
  subst hs
  exact (steady_string.carries hd hbelow hv).map (l.insert s)

theorem steady_defaultDeny : Steady DefaultDeny.read :=
  steady_record _ _ _ _ fun _ _ => .ite (steady_bool.field _ fun _ _ => rfl)
    (steady_bool.field _ fun _ _ => rfl)

theorem NodeFields.steady_set (f : NodeFields) (field : String) : Steady (f.set field) := by
  have hparent : Steady (optional string) := steady_string.optional
  exact .ite (steady_string.field _ fun _ _ => rfl) <| .ite (hparent.field _ fun _ _ => rfl) <|
    .ite (steady_string.field _ fun _ _ => rfl) <| .ite (steady_string.field _ fun _ _ => rfl) <|
    .ite (steady_string.field _ fun _ _ => rfl) <| .ite (steady_labels.field _ fun _ _ => rfl) <|
    steady_defaultDeny.field _ fun _ _ => rfl

theorem Node.steady_read : Steady Node.read :=
  (steady_record _ _ _ _ NodeFields.steady_set).field NodeFields.node fun _ _ =>
    map_eq_pure_bind ..

theorem PortEntry.steady_read : Steady PortEntry.read := by
  have hprotocol : Steady readProtocol := steady_choice
  exact steady_record _ _ _ _ fun _ _ => .ite (steady_string.field _ fun _ _ => rfl) <|
    .ite (steady_string.field _ fun _ _ => rfl) (hprotocol.field _ fun _ _ => rfl)

theorem Edge.steady_read : Steady Edge.read := by
  have hkind : Steady readEdgeKind := steady_choice
  have hports : Steady (sequence PortEntry.read) := PortEntry.steady_read.sequence
  have hlabel : Steady (optional string) := steady_string.optional
  exact steady_record _ _ _ _ fun _ _ => .ite (steady_string.field _ fun _ _ => rfl) <|
    .ite (hkind.field _ fun _ _ => rfl) <| .ite (steady_string.field _ fun _ _ => rfl) <|
    .ite (steady_string.field _ fun _ _ => rfl) <| .ite (hports.field _ fun _ _ => rfl)
    (hlabel.field _ fun _ _ => rfl)

namespace Snapshot

/-- Reads a field of a graph. -/
def set (g : Snapshot) (field : String) (spot : Spot) (v : Yaml.Node) : Reader Snapshot := do
  if field = "nodes" then return { g with nodes := ← sequence Node.read spot v }
  else return { g with edges := ← sequence Edge.read spot v }

def names : List String := ["nodes", "edges"]

theorem read_mapping (spot : Spot) (p : Props) (es : List (Yaml.Node × Yaml.Node)) :
    read spot (.mapping p es) = entering p.mark spot fun spot =>
      eachEntry (takeField (among names) set) spot es ⟨[], {}⟩ >>= fun a => pure a.value := rfl

theorem read_of_isEmptyPlain {v : Yaml.Node} (h : isEmptyPlain v = true) (spot : Spot) :
    Yields (read spot v) {} :=
  yields_entries_of_isEmptyPlain h (fun _ _ => rfl) spot

theorem steady_set (g : Snapshot) (field : String) : Steady (g.set field) :=
  .ite (Node.steady_read.sequence.field _ fun _ _ => rfl)
    (Edge.steady_read.sequence.field _ fun _ _ => rfl)

end Snapshot

/-! ## The list of nodes -/

section Added
variable {ρ : Nat → Nat} {A : Nat → Prop} {k : Nat} {n : Yaml.Node} {x : Node} {d d' : Document}
  {spot spot' : Spot}

theorem aliases_resolve (hd : d.Serves ρ A d') {v : Yaml.Node} (hA : ∀ i ∈ v.aliases, A i) :
    ∀ i ∈ (d.resolve v).aliases, A i := by
  cases v with
  | scalar | sequence | mapping | cut => exact hA
  | reference m anchor =>
    rw [Document.resolve]
    cases ht : d.target? anchor with
    | none => exact hA
    | some t =>
      have hanchor : A anchor := hA anchor (by rw [Yaml.Node.aliases]; exact List.mem_singleton_self _)
      obtain ⟨t', -, hlike⟩ := hd.targets anchor hanchor t ht
      exact hlike.aliases

variable (hn : ∀ spot : Spot, 1 < spot.depth → Yields (Node.read spot n) x)

include hn

theorem carries_added {n' : Yaml.Node} (h : n'.bare id = n.bare id) (hdepth : 1 < spot.depth) :
    Carries d d' (fun _ y => y = x) (pure ()) (Node.read spot n') := by
  rintro _ j _ ⟨⟩ i hi
  have hlike : Yaml.Node.Like id (fun _ => True) n n' := ⟨h, fun _ _ => trivial⟩
  obtain ⟨y, i', hy, hi', rfl⟩ := Node.steady_read.carries d'.serves_self rfl hlike x i i
    (hn spot hdepth d' i) i (Nat.le_refl i)
  exact ⟨x, i', hy, Nat.le_trans hi' hi, rfl⟩

/-- The items of the list of nodes, with the node in front of them. -/
theorem carries_items_cons (hd : d.Serves ρ A d') (hspot : spot'.depth = spot.depth)
    (hdepth : 1 < spot'.depth) {items items' : List Yaml.Node}
    (h : Yaml.Node.bareAll id items' = n.bare id :: Yaml.Node.bareAll ρ items)
    (hA : ∀ i ∈ Yaml.Node.aliasesAll items, A i) (i i' : Nat) :
    Carries d d' (fun ns ns' => ns' = x :: ns) (itemsFrom Node.read spot i items)
      (itemsFrom Node.read spot' i' items') := by
  cases items' with
  | nil => simp [Yaml.Node.bareAll] at h
  | cons n' rest' =>
    rw [Yaml.Node.bareAll, List.cons.injEq] at h
    have hrest : Carries d d' Eq (itemsFrom Node.read spot i items)
        (itemsFrom Node.read spot' (i' + 1) rest') :=
      carries_itemsFrom Node.steady_read hd hspot (Yaml.Node.forall₂_like h.2 hA) i (i' + 1)
    have hfirst : Carries d d' (fun _ y => y = x) (pure ())
        (Node.read (spot'.step (.item i')) n') := carries_added hn h.1 hdepth
    change Carries d d' _ _ (Node.read (spot'.step (.item i')) n' >>= fun y =>
      itemsFrom Node.read spot' (i' + 1) rest' >>= fun ys => pure (y :: ys))
    refine hfirst.after fun y hy => ?_
    exact hrest.mapRight (y :: ·) fun ns ns' hns => congrArg₂ List.cons hy hns.symm

/-- The items of the list of nodes, with the node among them. -/
theorem carries_items (hd : d.Serves ρ A d') (hspot : spot'.depth = spot.depth)
    (hdepth : 1 < spot'.depth) {items items' : List Yaml.Node}
    (h : Yaml.Node.bareAll id items' = insertAt k (n.bare id) (Yaml.Node.bareAll ρ items))
    (hA : ∀ i ∈ Yaml.Node.aliasesAll items, A i) (i i' : Nat) :
    Carries d d' (fun ns ns' => ns' = insertAt k x ns) (itemsFrom Node.read spot i items)
      (itemsFrom Node.read spot' i' items') := by
  induction k generalizing items items' i i' with
  | zero => exact carries_items_cons hn hd hspot hdepth h hA i i'
  | succ k ih =>
    cases items with
    | nil =>
      rw [Yaml.Node.bareAll, insertAt_nil] at h
      have hfirst : Carries d d' (fun ns ns' => ns' = x :: ns) (itemsFrom Node.read spot i [])
          (itemsFrom Node.read spot' i' items') :=
        carries_items_cons hn hd hspot hdepth h hA i i'
      rintro ns j j' ⟨⟩
      exact hfirst [] j j rfl
    | cons m rest =>
      cases items' with
      | nil => simp [Yaml.Node.bareAll, insertAt] at h
      | cons m' rest' =>
        rw [Yaml.Node.bareAll, Yaml.Node.bareAll] at h
        obtain ⟨hm, hrest⟩ := List.cons.inj h
        rw [Yaml.Node.aliasesAll, List.forall_mem_append] at hA
        refine (Node.steady_read.carries hd (depth_step hspot _ _) ⟨hm, hA.1⟩).bind fun y y' hy => ?_
        refine (ih hrest hA.2 (i + 1) (i' + 1)).bind fun ns ns' hns => ?_
        rw [hns, hy]
        exact carries_pure rfl

/-- The list of nodes with one more. -/
theorem carries_list (hd : d.Serves ρ A d') (hspot : spot'.depth = spot.depth)
    (hdepth : 2 < spot'.depth) {v v' : Yaml.Node} (h : v'.bare id = d.listWith ρ k n v)
    (hA : ∀ i ∈ v.aliases, A i) :
    Carries d d' (fun ns ns' => ns' = insertAt k x ns) (sequence Node.read spot v)
      (sequence Node.read spot' v') := by
  intro ns j j' hrun
  obtain ⟨items, hitems, -⟩ := ran_sequence ⟨j, j', hrun⟩
  obtain ⟨p', items', rfl, hitems'⟩ := Document.items_of_listWith hitems h
  have hAitems : ∀ i ∈ Yaml.Node.aliasesAll items, A i :=
    fun i hi => aliases_resolve hd hA i (hitems.aliases i hi)
  have hinner := carries_items hn hd (depth_enter hspot) (Nat.lt_sub_of_add_lt hdepth) hitems'
    hAitems 0 0
  suffices hlist : Carries d d' (fun ns ns' => ns' = insertAt k x ns) (sequence Node.read spot v)
      (sequence Node.read spot' (.sequence p' items')) from hlist ns j j' hrun
  have hfollow : Carries d d' (fun t _ => t = d.resolve v) (follow v) (pure ()) := carries_resolve v
  change Carries d d' _ (follow v >>= _)
    (pure () >>= fun _ => sequence Node.read spot' (.sequence p' items'))
  refine hfollow.bind fun t _ ht => ?_
  subst ht
  change Carries d d' _ _ (entering p'.mark spot' fun spot => itemsFrom Node.read spot 0 items')
  generalize d.resolve v = t at hitems
  cases hitems with
  | sequence p items => exact carries_entering hspot hinner _ _
  | empty hempty =>
    cases t with
    | scalar =>
      simp only [hempty, if_true]
      exact hinner.entered (Nat.zero_lt_of_lt hdepth) p'.mark
    | sequence | mapping | reference | cut => cases hempty

/-! ## The entries of the graph -/

/-- The graph that was read so far has the node in its list. -/
def Grown (k : Nat) (x : Node) (a b : Partial Snapshot) : Prop :=
  b.value = { a.value with nodes := insertAt k x a.value.nodes }

omit hn

/-- After the list of nodes all is read as before. -/
theorem carries_entries_after (hd : d.Serves ρ A d') (hspot : spot'.depth = spot.depth)
    {es es' : List (Yaml.Node × Yaml.Node)} (hes : List.Forall₂ (Yaml.Node.LikeEntry ρ A) es es')
    {a b : Partial Snapshot} (hseen : b.seen = a.seen) (hnodes : "nodes" ∈ a.seen)
    (hgrown : Grown k x a b) :
    Carries d d' (Grown k x)
      (eachEntry (takeField (among Snapshot.names) Snapshot.set) spot es a)
      (eachEntry (takeField (among Snapshot.names) Snapshot.set) spot' es' b) := by
  induction hes generalizing a b with
  | nil => exact carries_pure hgrown
  | @cons e e' _ _ he _ ih =>
    rw [eachEntry_cons, eachEntry_cons]
    have hstep : Carries d d' (fun a b => b.seen = a.seen ∧ "nodes" ∈ a.seen ∧ Grown k x a b)
        (takeField (among Snapshot.names) Snapshot.set a spot e.1 (spot.step (stepOf e.1)) e.2)
        (takeField (among Snapshot.names) Snapshot.set b spot' e'.1 (spot'.step (stepOf e'.1))
          e'.2) := by
      refine ((steady_text "field identifier").carries hd hspot he.1).bind fun s s' hs => ?_
      subst hs
      cases hfield : among Snapshot.names s with
      | none => exact (carries_ignore he.2).bind fun _ _ _ => carries_pure ⟨hseen, hnodes, hgrown⟩
      | some field =>
        dsimp only
        rw [hseen]
        split
        · exact (refuses_fail _).carries _
        · next hnew =>
          have hedges : field ≠ "nodes" := fun heq => hnew (heq ▸ hnodes)
          have hread := (Edge.steady_read.sequence).carries hd
            (depth_step hspot (stepOf e.1) (stepOf e'.1)) he.2
          rw [Snapshot.set, Snapshot.set, if_neg hedges, if_neg hedges]
          refine (hread.bind (S := fun g g' => g' = { g with nodes := insertAt k x g.nodes })
            fun xs xs' hxs => ?_).bind fun g g' hg => ?_
          · subst hxs
            rw [hgrown]
            exact carries_pure rfl
          · exact carries_pure ⟨rfl, List.mem_cons_of_mem _ hnodes, hg⟩
    exact hstep.bind fun a b hab => ih hab.1 hab.2.1 hab.2.2

/-- As long as no list of nodes was read there is none. -/
def Nodeless (a : Partial Snapshot) : Prop := "nodes" ∉ a.seen ∧ a.value.nodes = []

/-- An entry for another field reads no list of nodes. -/
theorem Nodeless.takeField {a b : Partial Snapshot} (ha : Nodeless a) {e : Yaml.Node × Yaml.Node}
    {below : Spot} (hkey : (d.resolve e.1).text? ≠ some "nodes")
    (h : Ran d (takeField (among Snapshot.names) Snapshot.set a spot e.1 below e.2) b) :
    Nodeless b := by
  obtain ⟨s, hs, hcases⟩ := ran_takeField h
  obtain ⟨-, rfl⟩ | ⟨field, g, hfield, -, rfl, hset⟩ := hcases
  · exact ha
  · have hne : field ≠ "nodes" := by
      rintro rfl
      unfold among at hfield
      split at hfield
      · rw [Option.some_inj] at hfield
        exact hkey (hfield ▸ hs)
      · cases hfield
    rw [Snapshot.set, if_neg hne] at hset
    obtain ⟨xs, -, hg⟩ := ran_bind hset
    rw [ran_pure hg]
    exact ⟨List.not_mem_cons_of_ne_of_not_mem hne.symm ha.1, ha.2⟩

include hn

/-- The list of nodes with one more is read into the graph. -/
theorem carries_set_nodes (hd : d.Serves ρ A d') (hspot : spot'.depth = spot.depth)
    (hdepth : 2 < spot'.depth) {v v' : Yaml.Node} (h : v'.bare id = d.listWith ρ k n v)
    (hA : ∀ i ∈ v.aliases, A i) (g : Snapshot) :
    Carries d d' (fun g g' => g' = { g with nodes := insertAt k x g.nodes })
      (g.set "nodes" spot v) (g.set "nodes" spot' v') := by
  refine (carries_list hn hd hspot hdepth h hA).bind fun ns ns' hns => ?_
  subst hns
  exact carries_pure rfl

/-- The entry of the list of nodes. -/
theorem carries_takeField_nodes (hd : d.Serves ρ A d') (hspot : spot'.depth = spot.depth)
    (hdepth : 2 < spot'.depth) {key key' v v' : Yaml.Node} (hkey : Yaml.Node.Like ρ A key key')
    (hnodes : (d.resolve key).text? = some "nodes") (hv : v'.bare id = d.listWith ρ k n v)
    (hA : ∀ i ∈ v.aliases, A i) {a : Partial Snapshot} (ha : Nodeless a) :
    Carries d d' (fun b b' => b'.seen = b.seen ∧ "nodes" ∈ b.seen ∧ Grown k x b b')
      (takeField (among Snapshot.names) Snapshot.set a spot key (spot.step (stepOf key)) v)
      (takeField (among Snapshot.names) Snapshot.set a spot' key' (spot'.step (stepOf key')) v') := by
  refine ((steady_text "field identifier").carries hd hspot hkey).and_ran.bind fun s s' hs => ?_
  obtain ⟨rfl, hran⟩ := hs
  obtain rfl : "nodes" = s := Option.some_inj.1 (hnodes.symm.trans (ran_text hran))
  have hfield : among Snapshot.names "nodes" = some "nodes" := rfl
  simp only [hfield, ha.1, if_false]
  refine (carries_set_nodes hn hd (depth_step hspot (stepOf key) (stepOf key')) hdepth hv hA
    a.value).bind fun g g' hg => ?_
  exact carries_pure ⟨rfl, List.mem_cons_self, hg⟩

/-- At the end of a graph without a list of nodes one comes that has the node alone. -/
theorem carries_last (hd : d.Serves ρ A d') (hspot : spot'.depth = spot.depth)
    (hdepth : 2 < spot'.depth) {es' : List (Yaml.Node × Yaml.Node)}
    (hes : Yaml.Node.bareEntries id es' = d.entriesWith ρ k n []) {a : Partial Snapshot}
    (ha : Nodeless a) :
    Carries d d' (Grown k x) (pure a)
      (eachEntry (takeField (among Snapshot.names) Snapshot.set) spot' es' a) := by
  obtain ⟨key', v', rfl, hkey, hv⟩ := Document.last_of_entriesWith (A := A) hes
  -- it is read as one that takes the place of an absent list
  have hlist := carries_takeField_nodes hn hd hspot hdepth hkey rfl hv
    (fun _ h => absurd h List.not_mem_nil) ha
  have habsent : Yields (takeField (among Snapshot.names) Snapshot.set a spot
      (.scalar { mark := {} } .plain "nodes")
      (spot.step (stepOf (.scalar { mark := {} } .plain "nodes"))) (.absent {}))
      ⟨"nodes" :: a.seen, { a.value with nodes := [] }⟩ := by
    refine (yields_text rfl _ _).bind ?_
    have hfield : among Snapshot.names "nodes" = some "nodes" := rfl
    simp only [hfield, ha.1, if_false]
    exact fun _ _ => rfl
  rintro _ j _ ⟨⟩ i hi
  obtain ⟨b, i', hb, hi', -, -, hgrown⟩ := hlist _ j j (habsent d j) i hi
  refine ⟨b, i', ?_, hi', ?_⟩
  · rw [eachEntry_cons]
    exact bind_eq_ok.2 ⟨b, i', hb, rfl⟩
  · rw [Grown, hgrown, ha.2]

/-- Entry by entry, with the node in the list of nodes, or in a list of its own at the end. -/
theorem carries_entries (hd : d.Serves ρ A d') (hspot : spot'.depth = spot.depth)
    (hdepth : 2 < spot'.depth) {es es' : List (Yaml.Node × Yaml.Node)}
    (hes : Yaml.Node.bareEntries id es' = d.entriesWith ρ k n es)
    (hA : ∀ i ∈ Yaml.Node.aliasesEntries es, A i) {a : Partial Snapshot} (ha : Nodeless a) :
    Carries d d' (Grown k x)
      (eachEntry (takeField (among Snapshot.names) Snapshot.set) spot es a)
      (eachEntry (takeField (among Snapshot.names) Snapshot.set) spot' es' a) := by
  induction es generalizing es' a with
  | nil => exact carries_last hn hd hspot hdepth hes ha
  | cons e rest ih =>
    obtain ⟨key, v⟩ := e
    rw [Yaml.Node.aliasesEntries, List.forall_mem_append, List.forall_mem_append] at hA
    obtain ⟨⟨hAkey, hAv⟩, hArest⟩ := hA
    obtain ⟨key', v', rest', rfl, hkey, hcases⟩ := Document.first_of_entriesWith hes
    have hlike : Yaml.Node.Like ρ A key key' := ⟨hkey, hAkey⟩
    rw [eachEntry_cons, eachEntry_cons]
    obtain ⟨hnodes, hv, hrest⟩ | ⟨hother, hv, hrest⟩ := hcases
    · refine (carries_takeField_nodes hn hd hspot hdepth hlike hnodes hv hAv ha).bind
        fun b b' hb => ?_
      exact carries_entries_after hd hspot (Yaml.Node.forall₂_likeEntry hrest hArest) hb.1 hb.2.1
        hb.2.2
    · have hsteady : SteadyStep (takeField (among Snapshot.names) Snapshot.set) :=
        steadyStep_takeField Snapshot.steady_set
      have hstep := hsteady a hd hspot (depth_step hspot (stepOf key) (stepOf key')) hlike ⟨hv, hAv⟩
      refine hstep.and_ran.bind fun b b' hb => ?_
      obtain ⟨rfl, hran⟩ := hb
      exact ih hrest hArest (ha.takeField (e := (key, v)) hother hran)

omit hn

/-! ## The root -/

theorem root_entries_of_ran {g : Snapshot} (h : Ran d (Snapshot.read {} d.root) g) :
    ∃ es a, EntriesOf d.root es ∧
      Ran d (eachEntry (takeField (among Snapshot.names) Snapshot.set) ({} : Spot).enter es
        ⟨[], {}⟩) a := by
  -- an alias at the root has no anchor before it
  have hroot : d.resolve d.root = d.root := by
    cases hd : d.root with
    | reference m anchor =>
      have htarget : d.target? anchor = none := by rw [Document.target?, hd]; rfl
      rw [Document.resolve, htarget, Option.getD_none]
    | scalar | sequence | mapping | cut => rfl
  obtain ⟨es, a, hentries, hrun, -⟩ := ran_record h
  rw [hroot] at hentries
  exact ⟨es, a, hentries, hrun⟩

include hn in
/-- The graph with one more node. -/
theorem carries_read {es : List (Yaml.Node × Yaml.Node)} (h : EntriesOf d.root es)
    (hadds : d.Adds ρ k n d') (hd : d.Serves ρ (· ∈ d.root.aliases) d') :
    Carries d d' (fun g g' => g' = { g with nodes := insertAt k x g.nodes })
      (Snapshot.read {} d.root) (Snapshot.read {} d'.root) := by
  obtain ⟨p', es', hd', hes⟩ := hadds.entries h
  have hA := h.aliases
  have hspot : ({} : Spot).enter.depth = ({} : Spot).enter.depth := rfl
  have hdepth : 2 < ({} : Spot).enter.depth := by decide
  have hfold := carries_entries hn hd hspot hdepth hes hA (a := ⟨[], {}⟩) ⟨List.not_mem_nil, rfl⟩
  rw [hd', Snapshot.read_mapping]
  generalize d.root = v at h
  cases h with
  | mapping p es =>
    rw [Snapshot.read_mapping]
    refine carries_entering rfl ?_ _ _
    exact hfold.bind fun a b hab => carries_pure hab
  | empty hempty =>
    refine (Snapshot.read_of_isEmptyPlain hempty {}).carries_left ?_
    refine Carries.entered (by decide) ?_ p'.mark
    change Carries d d' _ (pure (⟨[], {}⟩ : Partial Snapshot) >>= fun a => pure a.value) _
    exact hfold.bind fun a b hab => carries_pure hab

/-! ## The node is read -/

/-- What is read as the list of nodes. -/
theorem ran_sequence_of_nodes {a b : Partial Snapshot} {e : Yaml.Node × Yaml.Node} {below : Spot}
    (hkey : (d.resolve e.1).text? = some "nodes")
    (h : Ran d (takeField (among Snapshot.names) Snapshot.set a spot e.1 below e.2) b) :
    ∃ ns, Ran d (sequence Node.read below e.2) ns := by
  obtain ⟨s, hs, hcases⟩ := ran_takeField h
  obtain rfl : "nodes" = s := Option.some_inj.1 (hkey.symm.trans hs)
  obtain ⟨hnone, -⟩ | ⟨field, g, hfield, -, -, hset⟩ := hcases
  · cases hnone
  · obtain rfl : "nodes" = field := Option.some_inj.1 hfield
    obtain ⟨ns, hns, -⟩ := ran_bind hset
    exact ⟨ns, hns⟩

/-- A key is the same text in both documents. -/
theorem text?_resolve (hd : d.Serves ρ A d') {key key' : Yaml.Node} (h : Yaml.Node.Like ρ A key key')
    {s : String} (hs : (d.resolve key).text? = some s) : (d'.resolve key').text? = some s := by
  have hscalar : ∀ {t t' : Yaml.Node}, Yaml.Node.Like ρ A t t' → t.text? = some s →
      t'.text? = some s := by
    intro t t' ht hs
    cases ht.top with
    | scalar => exact hs
    | sequence | mapping | reference | cut => cases hs
  cases h.top with
  | scalar => exact hs
  | sequence | mapping | cut => cases hs
  | @reference m m' i hi =>
    rw [Document.resolve] at hs ⊢
    cases ht : d.target? i with
    | none =>
      rw [ht] at hs
      cases hs
    | some t =>
      rw [ht, Option.getD_some] at hs
      obtain ⟨t', ht', hlike⟩ := hd.targets i hi t ht
      rw [ht', Option.getD_some]
      exact hscalar hlike hs

/-- Among the entries there is a list of nodes with the node in it. -/
theorem exists_nodes_entry (hd : d.Serves ρ A d') {es es' : List (Yaml.Node × Yaml.Node)}
    (hes : Yaml.Node.bareEntries id es' = d.entriesWith ρ k n es)
    (hA : ∀ i ∈ Yaml.Node.aliasesEntries es, A i)
    (hlists : ∀ e ∈ es, (d.resolve e.1).text? = some "nodes" →
      ∃ items, ItemsOf (d.resolve e.2) items) :
    ∃ e ∈ es', (d'.resolve e.1).text? = some "nodes" ∧
      ∃ p items, e.2 = .sequence p items ∧ ∃ n' ∈ items, n'.bare id = n.bare id := by
  induction es generalizing es' with
  | nil =>
    obtain ⟨key', v', rfl, hkey, hv⟩ := Document.last_of_entriesWith (A := A) hes
    have habsent : ItemsOf (d.resolve (.absent {})) [] := .empty rfl
    obtain ⟨p, items, hv', hitems⟩ := Document.items_of_listWith habsent hv
    exact ⟨_, List.mem_cons_self, text?_resolve hd hkey rfl, p, items, hv',
      exists_mem_of_insertAt hitems⟩
  | cons e rest ih =>
    obtain ⟨key, v⟩ := e
    rw [Yaml.Node.aliasesEntries, List.forall_mem_append, List.forall_mem_append] at hA
    rw [List.forall_mem_cons] at hlists
    obtain ⟨key', v', rest', rfl, hkey, hcases⟩ := Document.first_of_entriesWith hes
    obtain ⟨hnodes, hv, -⟩ | ⟨-, -, hrest⟩ := hcases
    · obtain ⟨items, hitems⟩ := hlists.1 hnodes
      obtain ⟨p, items', hv', hitems'⟩ := Document.items_of_listWith hitems hv
      exact ⟨_, List.mem_cons_self, text?_resolve hd ⟨hkey, hA.1.1⟩ hnodes, p, items', hv',
        exists_mem_of_insertAt hitems'⟩
    · obtain ⟨e, he, hfound⟩ := ih hrest hA.2 hlists.2
      exact ⟨e, List.mem_cons_of_mem _ he, hfound⟩

/-- A document with the node is read as a graph only if the node is read. -/
theorem ran_node (hadds : d.Adds ρ k n d') (hd : d.Serves ρ (· ∈ d.root.aliases) d') {g g' : Snapshot}
    (hg : Ran d (Snapshot.read {} d.root) g) (hg' : Ran d' (Snapshot.read {} d'.root) g') :
    ∃ spot y, Ran d' (Node.read spot n) y := by
  obtain ⟨es, a, hentries, hrun⟩ := root_entries_of_ran hg
  obtain ⟨p, es', hroot, hes⟩ := hadds.entries hentries
  obtain ⟨es₁, a', hentries', hrun'⟩ := root_entries_of_ran hg'
  rw [hroot] at hentries'
  obtain rfl : es₁ = es' := hentries'.eq
  have hlists : ∀ e ∈ es, (d.resolve e.1).text? = some "nodes" →
      ∃ items, ItemsOf (d.resolve e.2) items := by
    intro e he hkey
    obtain ⟨b, b', hstep⟩ := ran_eachEntry hrun e he
    obtain ⟨ns, hns⟩ := ran_sequence_of_nodes hkey hstep
    obtain ⟨items, hitems, -⟩ := ran_sequence hns
    exact ⟨items, hitems⟩
  obtain ⟨e, he, hkey, p', items, hv, n', hn', hbare⟩ :=
    exists_nodes_entry hd hes hentries.aliases hlists
  obtain ⟨b, b', hstep⟩ := ran_eachEntry hrun' e he
  obtain ⟨ns, hns⟩ := ran_sequence_of_nodes hkey hstep
  obtain ⟨items', hitems, hran⟩ := ran_sequence hns
  rw [hv] at hitems
  obtain rfl : items' = items := by
    cases hitems with
    | sequence => rfl
    | empty hempty => cases hempty
  obtain ⟨spot, y, j, j', hy⟩ := ran_itemsFrom hran n' hn'
  have hlike : Yaml.Node.Like id (fun _ => True) n' n := ⟨hbare.symm, fun _ _ => trivial⟩
  obtain ⟨y', i, hy', -, rfl⟩ := Node.steady_read.carries d'.serves_self rfl hlike y j j' hy j
    (Nat.le_refl j)
  exact ⟨spot, y, j, i, hy'⟩

end Added

/-! ## Nodes of unknown kinds -/

/--
To a document of a graph a node is added of a kind that is neither a namespace nor a pod group. If what
it has fits the fields that nodes of all kinds are read with, then the document with it is read as the
graph with the unknown node, and all else is as before. If not, and if the node is written without
aliases, the document is not read at all.
-/
theorem unknown_node_loads {d d' : Document} {g : Snapshot} {ρ : Nat → Nat} {k : Nat} {p : Props}
    {es : List (Yaml.Node × Yaml.Node)} {x : Node} (hg : d.read Snapshot.read = .ok g)
    (hx : Foreign es x) (hadds : d.Adds ρ k (.mapping p es) d') :
    (Fits es → d'.read Snapshot.read = .ok { g with nodes := insertAt k x g.nodes }) ∧
      (Yaml.Node.aliasesEntries es = [] → ¬ Fits es →
        ∃ e, d'.read Snapshot.read = .error e) := by
  have hd : d.Serves ρ (· ∈ d.root.aliases) d' := by
    refine hadds.serves ?_ ?_
    · rw [Yaml.Node.isWhole]
      exact hx.whole
    · rw [Yaml.Node.steps]
      omega
  obtain ⟨⟨j, hrun⟩, hfailure, hcontinues⟩ := Document.read_eq_ok.1 hg
  constructor
  · intro hfit
    obtain ⟨es₀, a, hentries, -⟩ := root_entries_of_ran ⟨0, j, hrun⟩
    have hread := carries_read (fun spot hdepth => hx.yields hfit p hdepth) hentries hadds hd
    obtain ⟨g', j', hrun', -, rfl⟩ := hread g 0 j hrun 0 (Nat.le_refl 0)
    exact Document.read_eq_ok.2
      ⟨⟨j', hrun'⟩, hadds.failure.trans hfailure, hadds.continues.trans hcontinues⟩
  · intro hnone hunfit
    cases hg' : d'.read Snapshot.read with
    | error e => exact ⟨e, rfl⟩
    | ok g' =>
      obtain ⟨⟨j', hrun'⟩, -⟩ := Document.read_eq_ok.1 hg'
      obtain ⟨spot, y, hy⟩ := ran_node hadds hd ⟨0, j, hrun⟩ ⟨0, j', hrun'⟩
      exact absurd (fits_of_ran hnone hy) hunfit

/-- A graph with an alias. -/
def shopDocument : Document := .ofText "nodes:\n- id: &s shop\nedges:\n- id: *s\n"

def shopGraph : Snapshot where
  nodes := [{ id := "shop" }]
  edges := [{ id := "shop" }]

/-- A note inside the shop. -/
def shopNote : List (String × Value) := [
  ("id", .text "note"), ("kind", .text "stickyNote"), ("parent", .text "shop"),
  ("text", .seq [.text "a", .map []])]

/-- The graph with the note in front, which brings an anchor. -/
def shopDocumentWithNote : Document :=
  .ofText ("nodes:\n- id: note\n  kind: stickyNote\n  parent: shop\n  text: &t [a, \x7b\x7d]\n" ++
    "- id: &s shop\nedges:\n- id: *s\n")

theorem unknown_node_loads_note :
    shopDocument.read Snapshot.read = .ok shopGraph ∧
      Foreign (Value.entryNodes shopNote) ⟨"note", some "shop", .unknown⟩ ∧
      shopDocument.Adds (· + 1) 0 (.mapping { mark := {} } (Value.entryNodes shopNote))
        shopDocumentWithNote ∧
      Fits (Value.entryNodes shopNote) ∧
      shopDocumentWithNote.read Snapshot.read = .ok { shopGraph with
        nodes := insertAt 0 ⟨"note", some "shop", .unknown⟩ shopGraph.nodes } := by
  have hread : shopDocument.read Snapshot.read = .ok shopGraph := by decide +kernel
  have hforeign : Foreign (Value.entryNodes shopNote) ⟨"note", some "shop", .unknown⟩ := by
    constructor <;> decide +kernel
  have hadds : shopDocument.Adds (· + 1) 0 (.mapping { mark := {} } (Value.entryNodes shopNote))
      shopDocumentWithNote := by decide +kernel
  have hfits : Fits (Value.entryNodes shopNote) := by constructor <;> decide +kernel
  exact ⟨hread, hforeign, hadds, hfits, (unknown_node_loads hread hforeign hadds).1 hfits⟩

/-- A note with labels of its own kind. -/
def labelledNote : List (String × Value) :=
  [("id", .text "note"), ("kind", .text "stickyNote"), ("labels", .seq [.text "todo"])]

/-- A document is read as the empty graph, but not with a note that has a list of labels. -/
theorem labelled_note_rejected : ∃ d d' : Document,
    d = .ofText "nodes: []\n" ∧
      d' = .ofText "nodes:\n- id: note\n  kind: stickyNote\n  labels: [todo]\n" ∧
      d.read Snapshot.read = .ok {} ∧
      Foreign (Value.entryNodes labelledNote) { id := "note" } ∧
      d.Adds id 0 (.mapping { mark := {} } (Value.entryNodes labelledNote)) d' ∧
      (d'.read Snapshot.read).toOption = none := by
  refine ⟨_, _, rfl, rfl, by decide +kernel, ?_, by decide +kernel, by decide +kernel⟩
  constructor <;> decide +kernel

end NetGraph
