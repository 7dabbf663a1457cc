import NetGraph.Proofs.Runs

/-!
# Readings that carry over from one document to another

A reader sees more than its node: aliases lead elsewhere in the document, and how many of them may be
followed depends on its size.

* `Carries` : what is read in one document is read in the other one, after no more aliases;
* `Steady` : the readers of which this holds wherever the aliases serve, for every node like the first.
  All readers are such: `Steady.optional`, `Steady.sequence`, `steady_entries` and `steady_record` say
  it of those that are made from others;
* `Document.read_eq_ok` : a document is read if its root is and the text ends well after it.
-/

namespace NetGraph.Yaml
namespace Reader
variable {α β γ δ : Type}

/-! ## From one document to another -/

/--
What `r` reads in `d`, `r'` reads in `d'` with a result that goes with it by `R`, and without having
followed more aliases.
-/
def Carries (d d' : Document) (R : α → β → Prop) (r : Reader α) (r' : Reader β) : Prop :=
  ∀ a j j', r d j = .ok (a, j') →
    ∀ i ≤ j, ∃ b i', r' d' i = .ok (b, i') ∧ i' ≤ j' ∧ R a b

section Carries
variable {d d' : Document} {R : α → β → Prop} {S : γ → δ → Prop} {r : Reader α} {r' : Reader β}

theorem carries_pure {a : α} {b : β} (h : R a b) : Carries d d' R (pure a) (pure b) := by
  rintro _ j _ ⟨⟩ i hi
  exact ⟨b, i, rfl, hi, h⟩

theorem Refuses.carries (h : Refuses r) (r' : Reader β) : Carries d d' R r r' :=
  fun a j j' hr => absurd ⟨j, j', hr⟩ (h d a)

theorem Carries.bind {k : α → Reader γ} {k' : β → Reader δ} (h : Carries d d' R r r')
    (hk : ∀ a b, R a b → Carries d d' S (k a) (k' b)) :
    Carries d d' S (r >>= k) (r' >>= k') := by
  intro c j j' hrun i hi
  obtain ⟨a, j₁, ha, hc⟩ := bind_eq_ok.1 hrun
  obtain ⟨b, i₁, hb, hi₁, hab⟩ := h a j j₁ ha i hi
  obtain ⟨c', i', hc', hi', hcc⟩ := hk a b hab c j₁ j' hc i₁ hi₁
  exact ⟨c', i', bind_eq_ok.2 ⟨b, i₁, hb, hc'⟩, hi', hcc⟩

/-- What was read in the first document may be used. -/
theorem Carries.and_ran (h : Carries d d' R r r') :
    Carries d d' (fun a b => R a b ∧ Ran d r a) r r' := by
  intro a j j' hrun i hi
  obtain ⟨b, i', hb, hi', hab⟩ := h a j j' hrun i hi
  exact ⟨b, i', hb, hi', hab, j, j', hrun⟩

/-- One more reading in the second document, which follows no aliases. -/
theorem Carries.after {a : α} {s : Reader γ} {k : β → Reader δ} (h : Carries d d' R (pure a) r')
    (hk : ∀ b, R a b → Carries d d' S s (k b)) : Carries d d' S s (r' >>= k) := by
  change Carries d d' S (pure a >>= fun _ => s) (r' >>= k)
  refine h.and_ran.bind fun a' b hab => ?_
  obtain ⟨hab, ha⟩ := hab
  exact hk b (ran_pure ha ▸ hab)

theorem Yields.carries_left {a : α} (h : Yields r a) (hr : Carries d d' R (pure a) r') :
    Carries d d' R r r' := by
  intro b j j' hrun i hi
  rw [h d j] at hrun
  exact hr b j j' hrun i hi

/-- A reading that is followed by a function. -/
theorem Carries.map {r r' : Reader α} (h : Carries d d' Eq r r') (f : α → γ) :
    Carries d d' Eq (r >>= fun a => pure (f a)) (r' >>= fun a => pure (f a)) :=
  h.bind fun _ _ hab => carries_pure (congrArg f hab)

theorem Carries.placed (h : Carries d d' R r r') (mark mark' : Mark) (spot spot' : Spot) :
    Carries d d' R (placed mark spot r) (Reader.placed mark' spot' r') := by
  intro a j j' hrun i hi
  obtain ⟨b, i', hb, hle, hab⟩ := h a j j' (placed_eq_ok.1 hrun) i hi
  exact ⟨b, i', placed_eq_ok.2 hb, hle, hab⟩

/-- What is read in the second document may be followed by a function. -/
theorem Carries.mapRight {T : α → γ → Prop} (h : Carries d d' R r r') (f : β → γ)
    (hf : ∀ a b, R a b → T a (f b)) : Carries d d' T r (r' >>= fun b => pure (f b)) := by
  intro a j j' hrun i hi
  obtain ⟨b, i', hb, hi', hab⟩ := h a j j' hrun i hi
  exact ⟨f b, i', bind_eq_ok.2 ⟨b, i', hb, rfl⟩, hi', hf a b hab⟩

theorem carries_entering {r : Spot → Reader α} {r' : Spot → Reader β} {spot spot' : Spot}
    (hdepth : spot'.depth = spot.depth) (h : Carries d d' R (r spot.enter) (r' spot'.enter))
    (mark mark' : Mark) : Carries d d' R (entering mark spot r) (entering mark' spot' r') := by
  unfold entering
  rw [hdepth]
  split
  · exact (refuses_throw _).carries _
  · exact h.placed _ _ _ _

/-- A collection that is entered in the second document only. -/
theorem Carries.entered {r' : Spot → Reader β} {spot : Spot} (hdepth : 0 < spot.depth)
    (h : Carries d d' R r (r' spot.enter)) (mark : Mark) :
    Carries d d' R r (entering mark spot r') := by
  unfold entering
  rw [if_neg (Nat.pos_iff_ne_zero.1 hdepth)]
  intro a j j' hrun i hi
  obtain ⟨b, i', hb, hi', hab⟩ := h a j j' hrun i hi
  exact ⟨b, i', placed_eq_ok.2 hb, hi', hab⟩

theorem depth_enter {spot spot' : Spot} (h : spot'.depth = spot.depth) :
    spot'.enter.depth = spot.enter.depth := congrArg (· - 1) h

theorem depth_step {spot spot' : Spot} (h : spot'.depth = spot.depth) (x x' : Step) :
    (spot'.step x').depth = (spot.step x).depth := h

end Carries

/-! ## Steady readers -/

/-- What is read of a node in a document is read of each node like it, wherever the aliases serve. -/
structure Steady (r : Spot → Node → Reader α) : Prop where
  carries : ∀ {ρ : Nat → Nat} {A : Nat → Prop} {d d' : Document}, d.Serves ρ A d' →
    ∀ {spot spot' : Spot}, spot'.depth = spot.depth → ∀ {n n' : Node}, Node.Like ρ A n n' →
      Carries d d' Eq (r spot n) (r spot' n')

section Follow
variable {ρ : Nat → Nat} {A : Nat → Prop} {d d' : Document} {n n' : Node}

theorem carries_follow (hd : d.Serves ρ A d') (h : Node.Like ρ A n n') :
    Carries d d' (Node.Like ρ A) (follow n) (follow n') := by
  cases h.top with
  | scalar | sequence | mapping => exact carries_pure h
  | cut => exact refuses_brokenOff.carries _
  | @reference m m' anchor hA =>
    intro t j j' hrun i hi
    rw [follow_reference] at hrun
    split at hrun
    · cases hrun
    · next hjumps =>
      cases ht : d.target? anchor with
      | none =>
        rw [ht] at hrun
        cases hrun
      | some t₁ =>
        rw [ht] at hrun
        cases hrun
        obtain ⟨t', ht', hlike⟩ := hd.targets anchor hA t ht
        have hsteps := Nat.mul_le_mul_right repetitionFactor hd.steps
        refine ⟨t', i + 1, ?_, Nat.succ_le_succ hi, hlike⟩
        rw [follow_reference, if_neg (by omega), ht']

/-- An alias that is followed in the first document only. -/
theorem carries_resolve (n : Node) :
    Carries d d' (fun t _ => t = d.resolve n) (follow n) (pure ()) := by
  intro t j j' hrun i hi
  have hmono : j ≤ j' := by
    cases n with
    | scalar | sequence | mapping =>
      cases hrun
      exact Nat.le_refl _
    | cut => exact absurd ⟨j, j', hrun⟩ (refuses_brokenOff d t)
    | reference m anchor =>
      rw [follow_reference] at hrun
      split at hrun
      · cases hrun
      · split at hrun
        · cases hrun
          exact Nat.le_succ j
        · cases hrun
  exact ⟨(), i, rfl, Nat.le_trans hi hmono, ran_follow ⟨j, j', hrun⟩⟩

end Follow

theorem steady_text (expected : String) : Steady (text expected) := by
  constructor
  intro ρ A d d' hd spot spot' hdepth n n' h
  refine (carries_follow hd h).bind fun t t' ht => ?_
  cases ht.top with
  | scalar => exact carries_pure rfl
  | sequence | mapping | reference | cut => exact (refuses_refuse _ _ _).carries _

theorem steady_string : Steady string := steady_text "a string"

theorem steady_bool : Steady bool := by
  constructor
  intro ρ A d d' hd spot spot' hdepth n n' h
  refine (carries_follow hd h).bind fun t t' ht => ?_
  cases ht.top with
  | scalar htag =>
    dsimp only
    rw [htag]
    split
    · split
      · exact carries_pure rfl
      · exact (refuses_refuse _ _ _).carries _
    · exact (refuses_refuse _ _ _).carries _
  | sequence | mapping | reference | cut => exact (refuses_refuse _ _ _).carries _

theorem Steady.optional {r : Spot → Node → Reader α} (h : Steady r) : Steady (optional r) := by
  constructor
  intro ρ A d d' hd spot spot' hdepth n n' hn
  refine (carries_follow hd hn).bind fun t t' ht => ?_
  have hpresent := (h.carries hd hdepth ht).map some
  cases ht.top with
  | @scalar p p' style s htag =>
    cases style with
    | plain =>
      dsimp only
      rw [htag]
      split
      · split
        · exact carries_pure rfl
        · exact (refuses_fail _).carries _
      · split
        · exact carries_pure rfl
        · exact hpresent
    | singleQuoted | doubleQuoted | literal | folded => exact hpresent
  | sequence | mapping | reference | cut => exact hpresent

section Choice
variable {known : List String} {parse : String → Option α}

theorem carries_variant {d d' : Document} (name : String) :
    Carries d d' Eq (variant known parse name) (variant known parse name) := by
  unfold variant
  split
  · exact carries_pure rfl
  · exact (refuses_fail _).carries _

/-- After the tag that names a variant. -/
theorem carries_unit {d d' : Document} {p p' : Props} {style : Style} {s : String}
    (spot spot' : Spot) :
    Carries d d' Eq (unit spot (.scalar p style s)) (unit spot' (.scalar p' style s)) := by
  unfold unit
  dsimp only
  split
  · exact carries_pure rfl
  · exact ((refuses_fail _).placed _ _).carries _

/-- A tag names a variant of nothing, so that no list and no mapping follows it. -/
theorem refuses_choiceIn {spot : Spot} {n : Node} (h : ∀ p style s, n ≠ .scalar p style s) :
    Refuses (choiceIn known parse spot n) := by
  unfold choiceIn
  cases n with
  | scalar p style s => exact absurd rfl (h p style s)
  | sequence p _ | mapping p _ =>
    dsimp only
    split
    · exact refuses_refuse _ _ _
    · intro d a ha
      obtain ⟨_, -, ha⟩ := ran_bind ha
      exact (refuses_refuse "unit" spot _).bind _ d a ha
  | reference | cut => exact refuses_refuse _ _ _

theorem carries_choiceIn {ρ : Nat → Nat} {A : Nat → Prop} {d d' : Document} {n n' : Node}
    (h : Node.Like ρ A n n') (spot spot' : Spot) :
    Carries d d' Eq (choiceIn known parse spot n) (choiceIn known parse spot' n') := by
  cases h.top with
  | @scalar p p' style s htag =>
    unfold choiceIn
    dsimp only
    rw [htag]
    split
    · exact (carries_variant s).placed _ _ _ _
    · refine (carries_variant _).bind fun a b hab => ?_
      exact (carries_unit spot spot').bind fun _ _ _ => carries_pure hab
  | sequence | mapping | reference | cut => exact (refuses_choiceIn (by simp)).carries _

theorem steady_choice : Steady (choice known parse) := by
  constructor
  intro ρ A d d' hd spot spot' hdepth n n' h
  refine (carries_follow hd h).bind fun t t' ht => ?_
  have hin : Carries d d' Eq (choiceIn known parse spot t) (choiceIn known parse spot' t') :=
    carries_choiceIn ht spot spot'
  cases h.top with
  | reference => exact hin.placed _ _ _ _
  | scalar | sequence | mapping | cut => exact hin

end Choice

/-! ## Collections -/

section Sequence
variable {ρ : Nat → Nat} {A : Nat → Prop} {d d' : Document} {r : Spot → Node → Reader α}

theorem carries_itemsFrom (h : Steady r) (hd : d.Serves ρ A d') {spot spot' : Spot}
    (hdepth : spot'.depth = spot.depth) {items items' : List Node}
    (hitems : List.Forall₂ (Node.Like ρ A) items items') (i i' : Nat) :
    Carries d d' Eq (itemsFrom r spot i items) (itemsFrom r spot' i' items') := by
  induction hitems generalizing i i' with
  | nil => exact carries_pure rfl
  | @cons n n' _ _ hn _ ih =>
    refine (h.carries hd (depth_step hdepth (.item i) (.item i')) hn).bind fun a b hab => ?_
    refine (ih (i + 1) (i' + 1)).bind fun as bs habs => ?_
    exact carries_pure (congrArg₂ List.cons hab habs)

theorem isEmptyPlain_eq {n n' : Node} (h : Node.Like ρ A n n') : isEmptyPlain n' = isEmptyPlain n := by
  cases h.top with
  | @scalar p p' style s => cases style <;> rfl
  | sequence | mapping | reference | cut => rfl

theorem Steady.sequence (h : Steady r) : Steady (sequence r) := by
  constructor
  intro ρ A d d' hd spot spot' hdepth n n' hn
  refine (carries_follow hd hn).bind fun t t' ht => ?_
  have hempty := isEmptyPlain_eq ht
  cases ht.top with
  | sequence hitems =>
    exact carries_entering hdepth (carries_itemsFrom h hd (depth_enter hdepth) hitems 0 0) _ _
  | scalar | mapping | reference | cut =>
    dsimp only
    rw [hempty]
    split
    · exact carries_pure rfl
    · exact (refuses_refuse _ _ _).carries _

end Sequence

section Entries
variable {ρ : Nat → Nat} {A : Nat → Prop} {d d' : Document}
  {step : α → Spot → Node → Spot → Node → Reader α}

/-- A step from one entry of a mapping to the next that is steady in the key and the value. -/
def SteadyStep (step : α → Spot → Node → Spot → Node → Reader α) : Prop :=
  ∀ a {ρ : Nat → Nat} {A : Nat → Prop} {d d' : Document}, d.Serves ρ A d' →
    ∀ {spot spot' below below' : Spot}, spot'.depth = spot.depth → below'.depth = below.depth →
    ∀ {k k' v v' : Node},
      Node.Like ρ A k k' → Node.Like ρ A v v' →
        Carries d d' Eq (step a spot k below v) (step a spot' k' below' v')

theorem carries_eachEntry (h : SteadyStep step) (hd : d.Serves ρ A d') {spot spot' : Spot}
    (hdepth : spot'.depth = spot.depth) {es es' : List (Node × Node)}
    (hes : List.Forall₂ (Node.LikeEntry ρ A) es es') (a : α) :
    Carries d d' Eq (eachEntry step spot es a) (eachEntry step spot' es' a) := by
  induction hes generalizing a with
  | nil => exact carries_pure rfl
  | @cons e e' _ _ he _ ih =>
    have hbelow := depth_step hdepth (stepOf e.1) (stepOf e'.1)
    rw [eachEntry_cons, eachEntry_cons]
    refine (h a hd hdepth hbelow he.1 he.2).bind fun b b' hb => ?_
    subst hb
    exact ih b

theorem steady_entries (expected : String) (init : α) (h : SteadyStep step) {finish : α → Reader β}
    (hfinish : ∀ (d d' : Document) a, Carries d d' Eq (finish a) (finish a)) :
    Steady (entries expected init step finish) := by
  constructor
  intro ρ A d d' hd spot spot' hdepth n n' hn
  refine (carries_follow hd hn).bind fun t t' ht => ?_
  have hempty := isEmptyPlain_eq ht
  cases ht.top with
  | mapping hes =>
    refine carries_entering hdepth ?_ _ _
    refine (carries_eachEntry h hd (depth_enter hdepth) hes init).bind fun a b hab => ?_
    subst hab
    exact hfinish d d' a
  | scalar | sequence | reference | cut =>
    dsimp only
    rw [hempty]
    split
    · exact (hfinish d d' init).placed _ _ _ _
    · exact (refuses_refuse _ _ _).carries _

theorem carries_ignore {n n' : Node} (h : Node.Like ρ A n n') :
    Carries d d' Eq (ignore n) (ignore n') := by
  unfold ignore
  rw [h.isWhole_eq]
  split
  · exact carries_pure rfl
  · exact refuses_brokenOff.carries _

theorem steadyStep_takeField {canonical : String → Option String}
    {set : α → String → Spot → Node → Reader α} (h : ∀ a field, Steady (set a field)) :
    SteadyStep (takeField canonical set) := by
  intro a ρ A d d' hd spot spot' below below' hdepth hbelow k k' v v' hk hv
  refine ((steady_text "field identifier").carries hd hdepth hk).bind fun s s' hs => ?_
  subst hs
  cases canonical s with
  | none => exact (carries_ignore hv).bind fun _ _ _ => carries_pure rfl
  | some field =>
    dsimp only
    split
    · exact (refuses_fail _).carries _
    · exact ((h a.value field).carries hd hbelow hv).map (Partial.mk (field :: a.seen))

theorem steady_record (expected : String) (canonical : String → Option String)
    (required : List String) (init : α) {set : α → String → Spot → Node → Reader α}
    (h : ∀ a field, Steady (set a field)) :
    Steady (record expected canonical required init set) := by
  refine steady_entries expected _ (steadyStep_takeField h) fun d d' a => ?_
  split
  · exact (refuses_fail _).carries _
  · exact carries_pure rfl

/-- One of two readers, by what does not depend on the node. -/
theorem Steady.ite {r r' : Spot → Node → Reader α} {c : Prop} [Decidable c] (h : Steady r)
    (h' : Steady r') : Steady fun spot n => if c then r spot n else r' spot n := by
  split
  · exact h
  · exact h'

/-- A field that is read into the value. -/
theorem Steady.field {r : Spot → Node → Reader β} {r' : Spot → Node → Reader α} (h : Steady r)
    (f : β → α) (hr : ∀ spot n, r' spot n = r spot n >>= fun x => pure (f x)) : Steady r' := by
  constructor
  intro ρ A d d' hd spot spot' hdepth n n' hn
  rw [hr, hr]
  exact (h.carries hd hdepth hn).map f

end Entries

end Reader

/-! ## Documents -/

namespace Document
variable {α : Type}

/-- A document is read if its root is and the text ends after it, without an error. -/
theorem read_eq_ok {r : Spot → Node → Reader α} {d : Document} {a : α} :
    d.read r = .ok a ↔
      (∃ jumps, r {} d.root d 0 = .ok (a, jumps)) ∧ d.failure = none ∧ d.continues = false := by
  unfold Document.read
  cases hrun : r {} d.root d 0 with
  | error e => simp
  | ok x =>
    cases hfailure : d.failure with
    | some e => simp
    | none =>
      obtain ⟨b, jumps⟩ := x
      cases hcontinues : d.continues <;> simp

end Document
end NetGraph.Yaml
