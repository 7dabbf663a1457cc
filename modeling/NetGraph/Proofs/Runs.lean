import NetGraph.Proofs.BareTree
import NetGraph.Proofs.Reading

/-!
# Runs of readers

What is known of a reading that went well, and when one goes well whatever the document is.

* `Ran d r a` : in the document `d` the reading gives `a`. `ran_bind`, `ran_follow`, `ran_text`,
  `ran_sequence`, `ran_entries`, `ran_record` and `ran_takeField` take such a reading apart;
* `ran_itemsFrom`, `ran_eachEntry` : of a list every item was read, of a mapping every entry;
* `Refuses` : readings that never go well;
* `exists_yields_entries`, `exists_yields_record` : mappings that are read whatever the document is, as
  every entry is;
* `takeField_seen`, `takeField_value` : the entries of a record are for different fields, and what is
  read into a part of the value comes from the one entry that is for it.
-/

namespace NetGraph.Yaml

/-- The text of a scalar. -/
def Node.text? : Node → Option String
  | scalar _ _ s => some s
  | _ => none

/-- The node itself, or what an alias leads to. -/
def Document.resolve (d : Document) : Node → Node
  | .reference m anchor => (d.target? anchor).getD (.reference m anchor)
  | n => n

/-- The items of a list; an empty plain scalar has none. -/
inductive ItemsOf : Node → List Node → Prop where
  | sequence (p : Props) (items : List Node) : ItemsOf (.sequence p items) items
  | empty {n : Node} : Reader.isEmptyPlain n = true → ItemsOf n []

/-- The entries of a mapping; an empty plain scalar has none. -/
inductive EntriesOf : Node → List (Node × Node) → Prop where
  | mapping (p : Props) (es : List (Node × Node)) : EntriesOf (.mapping p es) es
  | empty {n : Node} : Reader.isEmptyPlain n = true → EntriesOf n []

theorem ItemsOf.aliases {n : Node} {items : List Node} (h : ItemsOf n items) :
    ∀ i ∈ Node.aliasesAll items, i ∈ n.aliases := by
  cases h with
  | sequence p items => exact fun i hi => by rwa [Node.aliases]
  | empty _ => exact nofun

theorem EntriesOf.aliases {n : Node} {es : List (Node × Node)} (h : EntriesOf n es) :
    ∀ i ∈ Node.aliasesEntries es, i ∈ n.aliases := by
  cases h with
  | mapping p es => exact fun i hi => by rwa [Node.aliases]
  | empty _ => exact nofun

theorem EntriesOf.eq {p : Props} {es es' : List (Node × Node)} (h : EntriesOf (.mapping p es) es') :
    es' = es := by
  cases h with
  | mapping => rfl
  | empty hempty => cases hempty

theorem Node.eq_scalar_of_text? {n : Node} {s : String} (h : n.text? = some s) :
    ∃ p style, n = .scalar p style s := by
  cases n <;> simp only [text?, Option.some.injEq, reduceCtorEq] at h
  subst h
  exact ⟨_, _, rfl⟩

theorem Document.resolve_of_text? {d : Document} {n : Node} {s : String} (h : n.text? = some s) :
    d.resolve n = n := by
  obtain ⟨p, style, rfl⟩ := Node.eq_scalar_of_text? h
  rfl

theorem Document.resolve_of_aliases {d : Document} {n : Node} (h : n.aliases = []) :
    d.resolve n = n := by
  cases n with
  | reference => simp [Node.aliases] at h
  | scalar | sequence | mapping | cut => rfl

namespace Reader
variable {α β : Type}

/-! ## Readings that go well -/

/-- In the document `d` the reading gives `a`, however many aliases were followed before. -/
def Ran (d : Document) (r : Reader α) (a : α) : Prop := ∃ j j', r d j = .ok (a, j')

section Ran
variable {r : Reader α} {d : Document} {a b : α}

/-- A run of a reader and what follows it is a run of each. -/
theorem bind_eq_ok {k : α → Reader β} {j j' : Nat} {b : β} :
    (r >>= k) d j = .ok (b, j') ↔ ∃ a i, r d j = .ok (a, i) ∧ k a d i = .ok (b, j') := by
  change (r d j >>= fun x => k x.1 d x.2) = .ok (b, j') ↔ _
  cases r d j with
  | error e => simp [bind, Except.bind]
  | ok x =>
    obtain ⟨a, i⟩ := x
    refine ⟨fun h => ⟨a, i, rfl, h⟩, ?_⟩
    rintro ⟨_, _, ⟨⟩, h⟩
    exact h

theorem placed_eq_ok {mark : Mark} {spot : Spot} {j j' : Nat} :
    placed mark spot r d j = .ok (a, j') ↔ r d j = .ok (a, j') := by
  unfold placed
  cases h : r d j <;> simp

theorem ran_bind {k : α → Reader β} {b : β} (h : Ran d (r >>= k) b) :
    ∃ a, Ran d r a ∧ Ran d (k a) b := by
  obtain ⟨j, j', h⟩ := h
  obtain ⟨a, i, ha, hb⟩ := bind_eq_ok.1 h
  exact ⟨a, ⟨j, i, ha⟩, i, j', hb⟩

theorem ran_pure (h : Ran d (pure a) b) : b = a := by
  obtain ⟨j, j', h⟩ := h
  cases h
  rfl

theorem ran_placed {mark : Mark} {spot : Spot} (h : Ran d (placed mark spot r) a) : Ran d r a := by
  obtain ⟨j, j', h⟩ := h
  exact ⟨j, j', placed_eq_ok.1 h⟩

theorem ran_entering {r : Spot → Reader α} {mark : Mark} {spot : Spot}
    (h : Ran d (entering mark spot r) a) : Ran d (r spot.enter) a := by
  unfold entering at h
  split at h
  · obtain ⟨j, j', h⟩ := h
    cases h
  · exact ran_placed h

theorem Yields.ran (h : Yields r a) (d : Document) : Ran d r a := ⟨0, 0, h d 0⟩

theorem Yields.eq_of_ran (h : Yields r a) (hb : Ran d r b) : b = a := by
  obtain ⟨j, j', hb⟩ := hb
  rw [h d j] at hb
  cases hb
  rfl

end Ran

/-! ## Readings that never go well -/

/-- The reading gives nothing, whatever the document. -/
def Refuses (r : Reader α) : Prop := ∀ d a, ¬ Ran d r a

theorem refuses_throw (e : ReadError) : Refuses (throw e : Reader α) := by
  rintro d a ⟨j, j', h⟩
  cases h

theorem refuses_fail (m : Mismatch) : Refuses (fail m : Reader α) := refuses_throw _

theorem Refuses.placed {r : Reader α} (h : Refuses r) (mark : Mark) (spot : Spot) :
    Refuses (placed mark spot r) := fun d a ha => h d a (ran_placed ha)

theorem Refuses.bind {r : Reader α} (h : Refuses r) (k : α → Reader β) : Refuses (r >>= k) := by
  intro d b hb
  obtain ⟨a, ha, -⟩ := ran_bind hb
  exact h d a ha

theorem refuses_refuse (expected : String) (spot : Spot) (n : Node) :
    Refuses (refuse expected spot n : Reader α) := (refuses_fail _).placed _ _

theorem refuses_brokenOff : Refuses (brokenOff : Reader α) := by
  intro d a h
  obtain ⟨d', -, h⟩ := ran_bind h
  split at h
  · exact refuses_throw _ d a h
  · exact refuses_throw _ d a h

/-! ## Aliases and texts -/

section Follow
variable {n t : Node} {d : Document}

theorem follow_reference (m : Mark) (anchor : Nat) (d : Document) (j : Nat) :
    follow (.reference m anchor) d j =
      if j + 1 > d.root.steps * repetitionFactor then .error .tooManyRepetitions
      else match d.target? anchor with
        | some n => .ok (n, j + 1)
        | none => .error .endOfText := by
  unfold follow
  change (if j + 1 > d.root.steps * repetitionFactor then throw .tooManyRepetitions
    else match d.target? anchor with
      | some n => pure n
      | none => throw .endOfText : Reader Node) d (j + 1) = _
  split
  · rfl
  · cases d.target? anchor <;> rfl

theorem ran_follow (h : Ran d (follow n) t) : t = d.resolve n := by
  cases n with
  | scalar | sequence | mapping => exact ran_pure h
  | cut => exact absurd h (refuses_brokenOff d t)
  | reference m anchor =>
    obtain ⟨j, j', h⟩ := h
    rw [follow_reference] at h
    split at h
    · cases h
    · cases ht : d.target? anchor with
      | none => simp [ht] at h
      | some t₁ =>
        rw [ht] at h
        cases h
        rw [Document.resolve, ht, Option.getD_some]

theorem ran_text {expected s : String} {spot : Spot} (h : Ran d (text expected spot n) s) :
    (d.resolve n).text? = some s := by
  obtain ⟨t, ht, h⟩ := ran_bind h
  rw [← ran_follow ht]
  cases t with
  | scalar => rw [ran_pure h, Node.text?]
  | sequence | mapping | reference | cut => exact absurd h (refuses_refuse _ _ _ d s)

theorem yields_text {s : String} (h : n.text? = some s) (expected : String) (spot : Spot) :
    Yields (text expected spot n) s := by
  obtain ⟨p, style, rfl⟩ := Node.eq_scalar_of_text? h
  exact fun _ _ => rfl

theorem yields_ignore (h : n.isWhole = true) : Yields (ignore n) () := by
  unfold ignore
  rw [if_pos h]
  exact yields_pure ()

end Follow

/-! ## Collections -/

section Sequence
variable {r : Spot → Node → Reader α} {spot : Spot} {d : Document} {as : List α}

theorem ran_sequence {n : Node} (h : Ran d (sequence r spot n) as) :
    ∃ items, ItemsOf (d.resolve n) items ∧ Ran d (itemsFrom r spot.enter 0 items) as := by
  obtain ⟨t, ht, h⟩ := ran_bind h
  rw [← ran_follow ht]
  cases t with
  | sequence p items => exact ⟨items, .sequence p items, ran_entering h⟩
  | scalar | mapping | reference | cut =>
    dsimp only at h
    split at h
    · next hempty => exact ⟨[], .empty hempty, h⟩
    · exact absurd h (refuses_refuse _ _ _ d as)

/-- Of a list that was read every item was read. -/
theorem ran_itemsFrom {items : List Node} {k : Nat} (h : Ran d (itemsFrom r spot k items) as) :
    ∀ n ∈ items, ∃ spot' a, Ran d (r spot' n) a := by
  induction items generalizing k as with
  | nil => exact fun _ hn => absurd hn List.not_mem_nil
  | cons n rest ih =>
    obtain ⟨a, ha, h⟩ := ran_bind h
    obtain ⟨_, hrest, -⟩ := ran_bind h
    exact List.forall_mem_cons.2 ⟨⟨_, a, ha⟩, ih hrest⟩

end Sequence

section Entries
variable {step : α → Spot → Node → Spot → Node → Reader α} {spot : Spot} {d : Document}
  {es : List (Node × Node)} {expected : String} {init : α} {finish : α → Reader β} {b : β}

/-- Of the entries that were read each was. -/
theorem ran_eachEntry {a a' : α} (h : Ran d (eachEntry step spot es a) a') :
    ∀ e ∈ es, ∃ x x', Ran d (step x spot e.1 (spot.step (stepOf e.1)) e.2) x' := by
  induction es generalizing a with
  | nil => exact fun _ he => absurd he List.not_mem_nil
  | cons e rest ih =>
    rw [eachEntry_cons] at h
    obtain ⟨b, hb, hrest⟩ := ran_bind h
    exact List.forall_mem_cons.2 ⟨⟨a, b, hb⟩, ih hrest⟩

theorem ran_entries {n : Node} (h : Ran d (entries expected init step finish spot n) b) :
    ∃ es a, EntriesOf (d.resolve n) es ∧ Ran d (eachEntry step spot.enter es init) a ∧
      Ran d (finish a) b := by
  obtain ⟨t, ht, h⟩ := ran_bind h
  rw [← ran_follow ht]
  cases t with
  | mapping p es =>
    obtain ⟨a, hfold, hfinish⟩ := ran_bind (ran_entering h)
    exact ⟨es, a, .mapping p es, hfold, hfinish⟩
  | scalar | sequence | reference | cut =>
    dsimp only at h
    split at h
    · next hempty => exact ⟨[], init, .empty hempty, ⟨0, 0, rfl⟩, ran_placed h⟩
    · exact absurd h (refuses_refuse _ _ _ d b)

/-- An empty plain scalar is read as the mapping without entries. -/
theorem yields_entries_of_isEmptyPlain {n : Node} (h : isEmptyPlain n = true)
    (hfinish : Yields (finish init) b) (spot : Spot) :
    Yields (entries expected init step finish spot n) b := by
  cases n with
  | scalar p style s =>
    refine Yields.bind (a := Node.scalar p style s) (fun _ _ => rfl) ?_
    simp only [h, if_true]
    exact hfinish.placed _ _
  | sequence | mapping | reference | cut => cases h

/-- Entry by entry, with an invariant `P` on the value so far and the entries that are left. -/
theorem exists_yields_eachEntry (P : α → List (Node × Node) → Prop) {a : α}
    (hstep : ∀ a e rest, P a (e :: rest) →
      ∃ b, Yields (step a spot e.1 (spot.step (stepOf e.1)) e.2) b ∧ P b rest) (h : P a es) :
    ∃ b, Yields (eachEntry step spot es a) b ∧ P b [] := by
  induction es generalizing a with
  | nil => exact ⟨a, yields_pure a, h⟩
  | cons e rest ih =>
    obtain ⟨b, hb, hrest⟩ := hstep a e rest h
    obtain ⟨c, hc, hnil⟩ := ih hrest
    rw [eachEntry_cons]
    exact ⟨c, hb.bind hc, hnil⟩

theorem exists_yields_entries (P : α → List (Node × Node) → Prop) {n : Node} (hn : EntriesOf n es)
    (hdepth : 0 < spot.depth)
    (hstep : ∀ a e rest, P a (e :: rest) →
      ∃ b, Yields (step a spot.enter e.1 (spot.enter.step (stepOf e.1)) e.2) b ∧ P b rest)
    (hfinish : ∀ a, P a [] → ∃ b, Yields (finish a) b) (h : P init es) :
    ∃ b, Yields (entries expected init step finish spot n) b := by
  obtain ⟨a, ha, hnil⟩ := exists_yields_eachEntry P hstep h
  obtain ⟨b, hb⟩ := hfinish a hnil
  refine ⟨b, ?_⟩
  cases hn with
  | mapping p es =>
    rw [entries_mapping]
    exact Yields.entering hdepth (ha.bind hb) p.mark
  | empty hempty =>
    obtain rfl : init = a := ha.eq_of_ran (d := { root := .cut }) ⟨0, 0, rfl⟩
    exact yields_entries_of_isEmptyPlain hempty hb spot

end Entries

/-! ## Records -/

/-- The field that an entry with a scalar key is for. -/
def fieldOf (canonical : String → Option String) (e : Node × Node) : Option String :=
  e.1.text?.bind canonical

section Records
variable {canonical : String → Option String} {set : α → String → Spot → Node → Reader α}
  {spot : Spot} {d : Document} {es : List (Node × Node)} {expected : String}
  {required : List String} {init : α}

/-- An entry is passed over, or it is for a field that was not seen before and is read into it. -/
theorem ran_takeField {a b : Partial α} {k v : Node} {below : Spot}
    (h : Ran d (takeField canonical set a spot k below v) b) :
    ∃ s, (d.resolve k).text? = some s ∧ ((canonical s = none ∧ b = a) ∨
      ∃ field x, canonical s = some field ∧ field ∉ a.seen ∧ b = ⟨field :: a.seen, x⟩ ∧
        Ran d (set a.value field below v) x) := by
  obtain ⟨s, hs, h⟩ := ran_bind h
  refine ⟨s, ran_text hs, ?_⟩
  cases hc : canonical s with
  | none =>
    simp only [hc] at h
    obtain ⟨_, -, h⟩ := ran_bind h
    exact .inl ⟨rfl, ran_pure h⟩
  | some field =>
    simp only [hc] at h
    split at h
    · exact absurd h (refuses_fail _ d b)
    · next hseen =>
      obtain ⟨x, hx, h⟩ := ran_bind h
      exact .inr ⟨field, x, rfl, hseen, ran_pure h, hx⟩

/-- The same for an entry with a scalar key. -/
theorem ran_takeField_of_isSome {a b : Partial α} {e : Node × Node} {below : Spot}
    (hkey : e.1.text?.isSome = true)
    (h : Ran d (takeField canonical set a spot e.1 below e.2) b) :
    (fieldOf canonical e = none ∧ b = a) ∨
      ∃ field x, fieldOf canonical e = some field ∧ field ∉ a.seen ∧ b = ⟨field :: a.seen, x⟩ ∧
        Ran d (set a.value field below e.2) x := by
  obtain ⟨s, hs⟩ := Option.isSome_iff_exists.1 hkey
  obtain ⟨s', hs', hcases⟩ := ran_takeField h
  rw [Document.resolve_of_text? hs, hs, Option.some_inj] at hs'
  subst hs'
  rwa [fieldOf, hs, Option.bind_some]

theorem ran_record {n : Node} {x : α}
    (h : Ran d (record expected canonical required init set spot n) x) :
    ∃ es a, EntriesOf (d.resolve n) es ∧
      Ran d (eachEntry (takeField canonical set) spot.enter es ⟨[], init⟩) a ∧ x = a.value := by
  obtain ⟨es, a, hn, hfold, ha⟩ := ran_entries h
  refine ⟨es, a, hn, hfold, ?_⟩
  split at ha
  · exact absurd ha (refuses_fail _ d x)
  · exact ran_pure ha

/--
A mapping with scalar keys is read as a record if its entries are for different fields, among them
those that have to come, and each is read into its field.
-/
theorem exists_yields_record {n : Node} (hn : EntriesOf n es) (hdepth : 0 < spot.depth)
    (hkeys : ∀ e ∈ es, e.1.text?.isSome = true) (hwhole : ∀ e ∈ es, e.2.isWhole = true)
    (hnodup : (es.filterMap (fieldOf canonical)).Nodup)
    (hset : ∀ e ∈ es, ∀ field, fieldOf canonical e = some field → ∀ a below,
      below.depth = spot.depth - 1 → ∃ b, Yields (set a field below e.2) b)
    (hrequired : ∀ f ∈ required, f ∈ es.filterMap (fieldOf canonical)) :
    ∃ b, Yields (record expected canonical required init set spot n) b := by
  -- what is left is a part of the entries, for fields that were not seen
  let P (a : Partial α) (rest : List (Node × Node)) : Prop := rest ⊆ es ∧
    (a.seen ++ rest.filterMap (fieldOf canonical)).Nodup ∧
    ∀ f ∈ required, f ∈ a.seen ++ rest.filterMap (fieldOf canonical)
  refine exists_yields_entries P hn hdepth ?_ ?_ ⟨fun _ h => h, hnodup, hrequired⟩
  · rintro a e rest ⟨hsub, hdistinct, hneeded⟩
    have he : e ∈ es := hsub List.mem_cons_self
    have hrest : rest ⊆ es := fun x hx => hsub (List.mem_cons_of_mem e hx)
    obtain ⟨s, hs⟩ := Option.isSome_iff_exists.1 (hkeys e he)
    have hfield : fieldOf canonical e = canonical s := by rw [fieldOf, hs, Option.bind_some]
    have hkey : Yields (text "field identifier" spot.enter e.1) s := yields_text hs _ _
    rw [List.filterMap_cons] at hdistinct hneeded
    cases hc : canonical s with
    | none =>
      rw [hfield, hc] at hdistinct hneeded
      refine ⟨a, hkey.bind ?_, hrest, hdistinct, hneeded⟩
      simp only [hc]
      exact (yields_ignore (hwhole e he)).bind (yields_pure a)
    | some field =>
      rw [hfield, hc] at hdistinct hneeded
      obtain ⟨b, hb⟩ := hset e he field (hfield.trans hc) a.value
        (spot.enter.step (stepOf e.1)) rfl
      have hmoved : (a.seen ++ field :: rest.filterMap (fieldOf canonical)).Perm
          (field :: (a.seen ++ rest.filterMap (fieldOf canonical))) := List.perm_middle
      have hnew : field ∉ a.seen := by
        have hcons := hmoved.nodup_iff.1 hdistinct
        exact fun hseen => (List.nodup_cons.1 hcons).1 (List.mem_append_left _ hseen)
      refine ⟨⟨field :: a.seen, b⟩, hkey.bind ?_, hrest, hmoved.nodup_iff.1 hdistinct,
        fun f hf => hmoved.mem_iff.1 (hneeded f hf)⟩
      simp only [hc, hnew, if_false]
      exact hb.bind (yields_pure _)
  · rintro a ⟨-, -, hneeded⟩
    rw [List.filterMap_nil, List.append_nil] at hneeded
    have hfind : required.find? (· ∉ a.seen) = none := by
      rw [List.find?_eq_none]
      intro f hf
      simpa using hneeded f hf
    simp only [hfind]
    exact ⟨a.value, yields_pure _⟩

section Fold
variable {a b : Partial α} (hkeys : ∀ e ∈ es, e.1.text?.isSome = true)
  (hrun : Ran d (eachEntry (takeField canonical set) spot es a) b)

include hkeys hrun

/-- The entries are for different fields, none of which was seen before. -/
theorem takeField_seen (hseen : a.seen.Nodup) :
    (es.filterMap (fieldOf canonical) ++ a.seen).Nodup := by
  induction es generalizing a with
  | nil => exact hseen
  | cons e rest ih =>
    rw [eachEntry_cons] at hrun
    rw [List.forall_mem_cons] at hkeys
    obtain ⟨c, hstep, hrest⟩ := ran_bind hrun
    rw [List.filterMap_cons]
    obtain ⟨hc, rfl⟩ | ⟨field, x, hc, hnew, rfl, -⟩ := ran_takeField_of_isSome hkeys.1 hstep
    · rw [hc]
      exact ih hkeys.2 hrest hseen
    · rw [hc]
      exact List.perm_middle.nodup_iff.1 (ih hkeys.2 hrest (List.nodup_cons.2 ⟨hnew, hseen⟩))

variable {γ : Type} {part : α → γ} {field : String}
  (hkeep : ∀ {x x' other below v}, other ≠ field → Ran d (set x other below v) x' → part x' = part x)

include hkeep

/-- A part of the value that other fields leave alone stays the same without an entry for its field. -/
theorem takeField_keeps (hnone : ∀ e ∈ es, fieldOf canonical e ≠ some field) :
    part b.value = part a.value := by
  induction es generalizing a with
  | nil => rw [ran_pure hrun]
  | cons e rest ih =>
    rw [eachEntry_cons] at hrun
    rw [List.forall_mem_cons] at hkeys hnone
    obtain ⟨c, hstep, hrest⟩ := ran_bind hrun
    rw [ih hkeys.2 hrest hnone.2]
    obtain ⟨-, rfl⟩ | ⟨other, x, hc, -, rfl, hset⟩ := ran_takeField_of_isSome hkeys.1 hstep
    · rfl
    · exact hkeep (fun heq => hnone.1 (heq ▸ hc)) hset

/-- A part of the value that other fields leave alone is as the entry for its field has set it. -/
theorem takeField_value (hseen : a.seen.Nodup) {e : Node × Node} (he : e ∈ es)
    (hfield : fieldOf canonical e = some field) :
    ∃ x x' below, Ran d (set x field below e.2) x' ∧ part b.value = part x' := by
  induction es generalizing a with
  | nil => exact absurd he List.not_mem_nil
  | cons e' rest ih =>
    have hdistinct := takeField_seen hkeys hrun hseen
    rw [eachEntry_cons] at hrun
    rw [List.forall_mem_cons] at hkeys
    obtain ⟨c, hstep, hrest⟩ := ran_bind hrun
    have hcases := ran_takeField_of_isSome hkeys.1 hstep
    cases List.mem_cons.1 he with
    | inl heq =>
      subst heq
      obtain ⟨hc, -⟩ | ⟨other, x, hc, -, rfl, hset⟩ := hcases
      · rw [hc] at hfield
        cases hfield
      · rw [hc, Option.some_inj] at hfield
        subst hfield
        rw [List.filterMap_cons, hc, List.cons_append, List.nodup_cons] at hdistinct
        refine ⟨_, x, _, hset, takeField_keeps hkeys.2 hrest hkeep fun e he heq => ?_⟩
        exact hdistinct.1 (List.mem_append_left _ (List.mem_filterMap.2 ⟨e, he, heq⟩))
    | inr he =>
      have hseen' : c.seen.Nodup := by
        obtain ⟨-, rfl⟩ | ⟨other, x, -, hnew, rfl, -⟩ := hcases
        · exact hseen
        · exact List.nodup_cons.2 ⟨hnew, hseen⟩
      exact ih hkeys.2 hrest hseen' he

end Fold
end Records

end Reader
end NetGraph.Yaml
