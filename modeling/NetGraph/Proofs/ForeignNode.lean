import NetGraph.GraphDocument.Reading
import NetGraph.Proofs.Runs
import Mathlib.Data.List.Nodup

/-!
# Nodes of kinds that are not known

A node is read with all the fields that any kind has before its kind is looked at, so that a node of
another kind is read only if what it has under the names of these fields is of their types.

* `Foreign es x` : the entries `es` are those of a node that is neither a namespace nor a pod group, and
  `x` is the unknown node with its id and its parent;
* `Fits es` : the keys and the values are of the types that the fields of all kinds have;
* `Foreign.yields` : entries that fit are read as the unknown node;
* `fits_of_ran` : entries without aliases that are read as a node fit.
-/

namespace NetGraph
open Yaml Yaml.Reader

namespace Yaml

/-! ## Entries of a mapping -/

/-- The value under a key. -/
def valueAt? (es : List (Node × Node)) (key : String) : Option Node :=
  (es.find? (·.1.text? = some key)).map (·.2)

section Entries
variable {es : List (Node × Node)}

theorem mem_of_valueAt? {key : String} {v : Node} (h : valueAt? es key = some v) :
    ∃ e ∈ es, e.1.text? = some key ∧ e.2 = v := by
  obtain ⟨e, he, rfl⟩ := Option.map_eq_some_iff.1 h
  exact ⟨e, List.mem_of_find?_eq_some he, by simpa using List.find?_some he, rfl⟩

/-- Among keys that are not repeated, an entry is the one under its key. -/
theorem valueAt?_of_mem (hdistinct : (es.filterMap (·.1.text?)).Nodup) {e : Node × Node} (he : e ∈ es)
    {key : String} (hkey : e.1.text? = some key) : valueAt? es key = some e.2 := by
  induction es with
  | nil => exact absurd he List.not_mem_nil
  | cons e' rest ih =>
    have hrest : (rest.filterMap (·.1.text?)).Nodup :=
      hdistinct.sublist ((List.sublist_cons_self e' rest).filterMap _)
    unfold valueAt?
    cases List.mem_cons.1 he with
    | inl heq =>
      subst heq
      rw [List.find?_cons_of_pos (by simpa using hkey), Option.map_some]
    | inr he =>
      have hne : e'.1.text? ≠ some key := by
        intro heq
        rw [List.filterMap_cons, heq] at hdistinct
        exact (List.nodup_cons.1 hdistinct).1 (List.mem_filterMap.2 ⟨e, he, hkey⟩)
      rw [List.find?_cons_of_neg (by simpa using hne)]
      exact ih hrest he

theorem Node.entriesAreWhole_eq_all (es : List (Node × Node)) :
    entriesAreWhole es = es.all fun e => e.1.isWhole && e.2.isWhole := by
  induction es with
  | nil => rfl
  | cons e rest ih => rw [entriesAreWhole, ih, List.all_cons]

theorem Node.aliasesEntries_eq_flatMap (es : List (Node × Node)) :
    aliasesEntries es = es.flatMap fun e => e.1.aliases ++ e.2.aliases := by
  induction es with
  | nil => rfl
  | cons e rest ih => rw [aliasesEntries, ih, List.flatMap_cons]

theorem isWhole_of_mem (h : Node.entriesAreWhole es = true) {e : Node × Node} (he : e ∈ es) :
    e.2.isWhole = true := by
  rw [Node.entriesAreWhole_eq_all, List.all_eq_true] at h
  exact (Bool.and_eq_true_iff.1 (h e he)).2

theorem aliases_of_mem (h : Node.aliasesEntries es = []) {e : Node × Node} (he : e ∈ es) :
    e.1.aliases = [] ∧ e.2.aliases = [] := by
  rw [Node.aliasesEntries_eq_flatMap, List.flatMap_eq_nil_iff] at h
  exact List.append_eq_nil_iff.1 (h e he)

theorem EntriesOf.aliases_eq_nil {n : Node} (h : EntriesOf n es) (hn : n.aliases = []) :
    Node.aliasesEntries es = [] := by
  rw [List.eq_nil_iff_forall_not_mem] at hn ⊢
  exact fun i hi => hn i (h.aliases i hi)

theorem EntriesOf.isWhole {n : Node} (h : EntriesOf n es) (hn : n.isWhole = true) :
    Node.entriesAreWhole es = true := by
  cases h with
  | mapping p es => rwa [Node.isWhole] at hn
  | empty _ => rfl

/-- Keys that are not repeated are for different fields. -/
theorem nodup_fieldOf_among (names : List String) (h : (es.filterMap (·.1.text?)).Nodup) :
    (es.filterMap (fieldOf (among names))).Nodup := by
  have hfields : es.filterMap (fieldOf (among names)) =
      (es.filterMap (·.1.text?)).filterMap (among names) := by
    rw [List.filterMap_filterMap]
    rfl
  rw [hfields]
  refine List.Nodup.filterMap (fun a a' b hb hb' => ?_) h
  unfold among at hb hb'
  split at hb <;> split at hb' <;> simp_all

theorem fieldOf_among_eq_some {names : List String} {e : Node × Node} {field : String}
    (h : fieldOf (among names) e = some field) : e.1.text? = some field ∧ field ∈ names := by
  obtain ⟨s, hs, hfield⟩ := Option.bind_eq_some_iff.1 h
  unfold among at hfield
  split at hfield
  · next hmem =>
    cases hfield
    exact ⟨hs, hmem⟩
  · cases hfield

theorem fieldOf_among {names : List String} {e : Node × Node} {field : String}
    (h : e.1.text? = some field) (hmem : field ∈ names) :
    fieldOf (among names) e = some field := by
  rw [fieldOf, h, Option.bind_some, among, if_pos hmem]

end Entries

/-! ## The types of the fields -/

namespace Node

/-- What a boolean is read from. -/
def isSwitch : Node → Bool
  | scalar p style s =>
    (style = .plain || (style = .literal && p.tag = some (.core "bool"))) && (bool? s).isSome
  | _ => false

/-- A scalar that stands for nothing. -/
def isNothing : Node → Bool
  | scalar p .plain s => p.tag = some (.core "null") || (p.tag.isNone && (s.isEmpty || isNull s))
  | _ => false

/-- The text of a scalar, unless it stands for nothing. -/
def optionalText (n : Node) : Option String := if n.isNothing then none else n.text?

/-- What is tagged as null spells null. -/
def tagAgrees : Node → Bool
  | scalar p .plain s => !(p.tag = some (.core "null")) || isNull s
  | _ => true

/-- A mapping with entries for which `q` holds, or nothing in place of one without entries. -/
def isMapOf (q : List (Node × Node) → Bool) : Node → Bool
  | mapping _ es => q es
  | n => isEmptyPlain n

/-- A mapping from texts to texts. -/
def isTextMap (n : Node) : Bool :=
  n.isMapOf fun es => es.all fun e => e.1.text?.isSome && e.2.text?.isSome

/-- A mapping with scalar keys, in which each of the names stands once at most, over a boolean. -/
def isSwitches (names : List String) (n : Node) : Bool :=
  n.isMapOf fun es =>
    (es.all fun e => e.1.text?.isSome) && (es.filterMap (fieldOf (among names))).Nodup &&
      es.all fun e => (fieldOf (among names) e).isNone || e.2.isSwitch

theorem isMapOf_of_entries {q : List (Node × Node) → Bool} {n : Node} {es : List (Node × Node)}
    (h : EntriesOf n es) (hes : q es = true) : n.isMapOf q = true := by
  cases h with
  | mapping p es => exact hes
  | empty hempty =>
    cases n with
    | scalar => exact hempty
    | sequence | mapping | reference | cut => cases hempty

theorem exists_entries_of_isMapOf {q : List (Node × Node) → Bool} {n : Node} (hnil : q [] = true)
    (h : n.isMapOf q = true) : ∃ es, EntriesOf n es ∧ q es = true := by
  cases n with
  | mapping p es => exact ⟨es, .mapping p es, h⟩
  | scalar | sequence | reference | cut => exact ⟨[], .empty h, hnil⟩

end Node

/-! ## Readings of the types -/

/-- Without aliases the keys of a record that was read are scalars. -/
theorem isSome_text?_of_ran {α : Type} {es : List (Node × Node)} (hes : Node.aliasesEntries es = [])
    {canonical : String → Option String} {set : α → String → Spot → Node → Reader α} {spot : Spot}
    {d : Document} {a b : Partial α} (h : Ran d (eachEntry (takeField canonical set) spot es a) b) :
    ∀ e ∈ es, e.1.text?.isSome = true := by
  intro e he
  obtain ⟨x, x', hstep⟩ := ran_eachEntry h e he
  obtain ⟨s, hs, -⟩ := ran_takeField hstep
  rw [Document.resolve_of_aliases (aliases_of_mem hes he).1] at hs
  rw [hs, Option.isSome_some]

section Types
variable {v : Node} {spot : Spot} {d : Document}

theorem text?_of_ran (hv : v.aliases = []) {expected s : String}
    (h : Ran d (text expected spot v) s) : v.text? = some s := by
  rw [← Document.resolve_of_aliases hv]
  exact ran_text h

theorem exists_yields_bool (h : v.isSwitch = true) (spot : Spot) : ∃ b, Yields (bool spot v) b := by
  cases v with
  | scalar p style s =>
    obtain ⟨hstyle, hs⟩ := Bool.and_eq_true_iff.1 h
    obtain ⟨b, hb⟩ := Option.isSome_iff_exists.1 hs
    refine ⟨b, Yields.bind (a := Node.scalar p style s) (fun _ _ => rfl) ?_⟩
    simp only [hstyle, if_true, hb]
    exact yields_pure b
  | sequence | mapping | reference | cut => cases h

theorem isSwitch_of_ran (hv : v.aliases = []) {b : Bool} (h : Ran d (bool spot v) b) :
    v.isSwitch = true := by
  obtain ⟨t, ht, h⟩ := ran_bind h
  rw [ran_follow ht, Document.resolve_of_aliases hv] at h
  cases v with
  | scalar p style s =>
    dsimp only at h
    split at h
    · next hstyle =>
      cases hb : bool? s with
      | some b' => simp only [Node.isSwitch, hstyle, hb, Option.isSome_some, Bool.and_self]
      | none => exact absurd h (by rw [hb]; exact refuses_refuse _ _ _ d _)
    · exact absurd h (refuses_refuse _ _ _ d _)
  | sequence | mapping | reference | cut => exact absurd h (refuses_refuse _ _ _ d _)

theorem yields_optional {s : String} (hv : v.text? = some s) (h : v.tagAgrees = true)
    (spot : Spot) : Yields (optional string spot v) v.optionalText := by
  obtain ⟨p, style, rfl⟩ := Node.eq_scalar_of_text? hv
  refine Yields.bind (a := Node.scalar p style s) (fun _ _ => rfl) ?_
  have hpresent : Yields (do return some (← string spot (.scalar p style s))) (some s) :=
    (yields_text hv _ spot).bind (yields_pure _)
  cases style with
  | plain =>
    by_cases htag : p.tag = some (.core "null")
    · have hnull : isNull s = true := by simpa [Node.tagAgrees, htag] using h
      simp only [Node.optionalText, Node.isNothing, htag, hnull, decide_true, Bool.true_or, if_true]
      exact yields_pure none
    · cases hempty : p.tag.isNone && (s.isEmpty || isNull s) with
      | true =>
        simp only [Node.optionalText, Node.isNothing, htag, hempty, decide_false, Bool.or_true,
          if_true, if_false]
        exact yields_pure none
      | false =>
        simp only [Node.optionalText, Node.isNothing, Node.text?, htag, hempty, decide_false,
          Bool.or_self, Bool.false_eq_true, if_false]
        exact hpresent
  | singleQuoted | doubleQuoted | literal | folded => exact hpresent

theorem tagAgrees_of_ran (hv : v.aliases = []) {o : Option String}
    (h : Ran d (optional string spot v) o) : v.tagAgrees = true := by
  obtain ⟨t, ht, h⟩ := ran_bind h
  rw [ran_follow ht, Document.resolve_of_aliases hv] at h
  cases v with
  | scalar p style s =>
    cases style with
    | plain =>
      by_cases htag : p.tag = some (.core "null")
      · cases hnull : isNull s with
        | true => simp only [Node.tagAgrees, hnull, Bool.or_true]
        | false =>
          simp only [htag, hnull, if_true, Bool.false_eq_true, if_false] at h
          exact absurd h (refuses_fail _ d _)
      · simp only [Node.tagAgrees, htag, decide_false, Bool.not_false, Bool.true_or]
    | singleQuoted | doubleQuoted | literal | folded => rfl
  | sequence | mapping | reference | cut => rfl

theorem exists_yields_labels (h : v.isTextMap = true) (hdepth : 0 < spot.depth) :
    ∃ l, Yields (Labels.read spot v) l := by
  obtain ⟨es, hentries, hes⟩ := Node.exists_entries_of_isMapOf rfl h
  rw [List.all_eq_true] at hes
  refine exists_yields_entries (fun _ rest => rest ⊆ es) hentries hdepth ?_ ?_ fun _ h => h
  · intro l e rest hsub
    obtain ⟨hk, hv⟩ := Bool.and_eq_true_iff.1 (hes e (hsub List.mem_cons_self))
    obtain ⟨key, hkey⟩ := Option.isSome_iff_exists.1 hk
    obtain ⟨s, hs⟩ := Option.isSome_iff_exists.1 hv
    refine ⟨l.insert key s, (yields_text hkey _ _).bind ((yields_text hs _ _).bind ?_),
      fun x hx => hsub (List.mem_cons_of_mem e hx)⟩
    exact yields_pure _
  · exact fun l _ => ⟨l, yields_pure l⟩

theorem isTextMap_of_ran (hv : v.aliases = []) {l : Labels} (h : Ran d (Labels.read spot v) l) :
    v.isTextMap = true := by
  obtain ⟨es, a, hentries, hrun, -⟩ := ran_entries h
  rw [Document.resolve_of_aliases hv] at hentries
  refine Node.isMapOf_of_entries hentries (List.all_eq_true.2 fun e he => ?_)
  obtain ⟨hk, hv⟩ := aliases_of_mem (hentries.aliases_eq_nil hv) he
  obtain ⟨x, x', hstep⟩ := ran_eachEntry hrun e he
  obtain ⟨key, hkey, hstep⟩ := ran_bind hstep
  obtain ⟨s, hs, -⟩ := ran_bind hstep
  rw [text?_of_ran hk hkey, text?_of_ran hv hs]
  rfl

end Types
end Yaml

/-- The names of the switches of a pod group. -/
def DefaultDeny.names : List String := ["denyIngressByDefault", "denyEgressByDefault"]

section Switches
variable {v : Yaml.Node} {spot : Spot} {d : Document}

theorem exists_yields_switches (h : v.isSwitches DefaultDeny.names = true)
    (hwhole : v.isWhole = true) (hdepth : 0 < spot.depth) :
    ∃ x, Yields (DefaultDeny.read spot v) x := by
  obtain ⟨es, hentries, hes⟩ := Yaml.Node.exists_entries_of_isMapOf rfl h
  rw [Bool.and_eq_true, Bool.and_eq_true, List.all_eq_true, List.all_eq_true,
    decide_eq_true_eq] at hes
  obtain ⟨⟨hkeys, hnodup⟩, hvalues⟩ := hes
  refine exists_yields_record hentries hdepth hkeys
    (fun e he => isWhole_of_mem (hentries.isWhole hwhole) he) hnodup ?_
    fun f hf => absurd hf List.not_mem_nil
  intro e he field hfield a below _
  have hswitch := hvalues e he
  rw [DefaultDeny.names] at hswitch
  rw [hfield, Option.isNone_some, Bool.false_or] at hswitch
  obtain ⟨b, hb⟩ := exists_yields_bool hswitch below
  split
  · exact ⟨_, hb.bind (yields_pure _)⟩
  · exact ⟨_, hb.bind (yields_pure _)⟩

theorem isSwitches_of_ran (hv : v.aliases = []) {x : DefaultDeny}
    (h : Ran d (DefaultDeny.read spot v) x) : v.isSwitches DefaultDeny.names = true := by
  obtain ⟨es, a, hentries, hfold, -⟩ := ran_record h
  rw [Document.resolve_of_aliases hv] at hentries
  have hnone := hentries.aliases_eq_nil hv
  have hkeys := isSome_text?_of_ran hnone hfold
  have hnodup := takeField_seen hkeys hfold List.nodup_nil
  rw [List.append_nil] at hnodup
  refine Yaml.Node.isMapOf_of_entries hentries ?_
  rw [Bool.and_eq_true, Bool.and_eq_true, List.all_eq_true, List.all_eq_true, decide_eq_true_eq]
  refine ⟨⟨hkeys, hnodup⟩, fun e he => ?_⟩
  obtain ⟨x, x', hstep⟩ := ran_eachEntry hfold e he
  obtain ⟨hc, -⟩ | ⟨field, y, -, -, -, hset⟩ := ran_takeField_of_isSome (hkeys e he) hstep
  · rw [DefaultDeny.names, hc, Option.isNone_none, Bool.true_or]
  · have hran : ∃ b, Ran d (bool (spot.enter.step (stepOf e.1)) e.2) b := by
      split at hset
      · obtain ⟨b, hb, -⟩ := ran_bind hset
        exact ⟨b, hb⟩
      · obtain ⟨b, hb, -⟩ := ran_bind hset
        exact ⟨b, hb⟩
    obtain ⟨b, hb⟩ := hran
    rw [isSwitch_of_ran (aliases_of_mem hnone he).2 hb, Bool.or_true]

end Switches

/-! ## Nodes -/

/--
The entries are those of a node that is neither a namespace nor a pod group, no key is repeated, and
`x` is the unknown node with its id and its parent.
-/
structure Foreign (es : List (Yaml.Node × Yaml.Node)) (x : Node) : Prop where
  distinct : (es.filterMap (·.1.text?)).Nodup
  whole : Yaml.Node.entriesAreWhole es = true
  id : (valueAt? es "id").bind Yaml.Node.text? = some x.id
  scalarParent : ∀ v ∈ valueAt? es "parent", v.text?.isSome = true
  parent : (valueAt? es "parent").bind Yaml.Node.optionalText = x.parent
  kind : ∀ v ∈ valueAt? es "kind", v.text? ≠ some "namespace" ∧ v.text? ≠ some "podGroup"
  body : x.body = .unknown

/-- The entries have scalar keys, and values of the types that the fields of a node have. -/
structure Fits (es : List (Yaml.Node × Yaml.Node)) : Prop where
  keys : ∀ e ∈ es, e.1.text?.isSome = true
  texts : ∀ key ∈ ["kind", "name", "namespace"], ∀ v ∈ valueAt? es key, v.text?.isSome = true
  parent : ∀ v ∈ valueAt? es "parent", v.tagAgrees = true
  labels : ∀ v ∈ valueAt? es "labels", v.isTextMap = true
  policyConfig : ∀ v ∈ valueAt? es "policyConfig", v.isSwitches DefaultDeny.names = true

namespace NodeFields
variable {d : Document} {f f' : NodeFields} {field : String} {spot : Spot} {v : Yaml.Node}

/-- What a field is read from, and what the fields are then. -/
theorem ran_set {β : Type} {r : Spot → Yaml.Node → Reader β} {g : β → NodeFields}
    (hr : set f field spot v = r spot v >>= fun b => pure (g b))
    (h : Ran d (set f field spot v) f') : ∃ b, Ran d (r spot v) b ∧ f' = g b := by
  rw [hr] at h
  obtain ⟨b, hb, h⟩ := ran_bind h
  exact ⟨b, hb, ran_pure h⟩

/-- Only its own field changes a part of the unknown node. -/
theorem set_keeps (h : Ran d (set f field spot v) f') :
    (field = "id" ∨ f'.id = f.id) ∧ (field = "parent" ∨ f'.parent = f.parent) ∧
      (field = "kind" ∨ f'.kind = f.kind) := by
  unfold set at h
  split_ifs at h with hid hparent hkind
  all_goals
    obtain ⟨_, -, h⟩ := ran_bind h
    rw [ran_pure h]
  · exact ⟨.inl hid, .inr rfl, .inr rfl⟩
  · exact ⟨.inr rfl, .inl hparent, .inr rfl⟩
  · exact ⟨.inr rfl, .inr rfl, .inl hkind⟩
  all_goals exact ⟨.inr rfl, .inr rfl, .inr rfl⟩

/-- The entry for a field that is there. -/
theorem exists_entry {es : List (Yaml.Node × Yaml.Node)} {key : String} (hv : valueAt? es key = some v)
    (hmem : key ∈ names) :
    ∃ e ∈ es, fieldOf (among names) e = some key ∧ e.2 = v := by
  obtain ⟨e, he, hkey, heq⟩ := mem_of_valueAt? hv
  exact ⟨e, he, fieldOf_among hkey hmem, heq⟩

section Run
variable {es : List (Yaml.Node × Yaml.Node)} {a b : Partial NodeFields} {key : String}
  (hkeys : ∀ e ∈ es, e.1.text?.isSome = true)
  (hrun : Ran d (eachEntry (takeField (among names) set) spot es a) b)
  (hv : valueAt? es key = some v) (hmem : key ∈ names)

include hkeys hrun hv hmem

/-- A part of the node that only one field changes is as that field has set it from its value. -/
theorem part_of_valueAt? {γ : Type} (part : NodeFields → γ)
    (hkeep : ∀ {f f' field below v}, field ≠ key → Ran d (set f field below v) f' → part f' = part f)
    (hseen : a.seen.Nodup) :
    ∃ f f' below, Ran d (set f key below v) f' ∧ part b.value = part f' := by
  obtain ⟨e, he, hfield, rfl⟩ := NodeFields.exists_entry hv hmem
  exact takeField_value hkeys hrun hkeep hseen he hfield

/-- What stands under the key of a field is read into it. -/
theorem ran_set_of_valueAt? (hseen : a.seen.Nodup) : ∃ f f' below, Ran d (set f key below v) f' := by
  obtain ⟨f, f', below, hset, -⟩ :=
    part_of_valueAt? hkeys hrun hv hmem (fun _ => ()) (fun _ _ => rfl) hseen
  exact ⟨f, f', below, hset⟩

end Run
end NodeFields

namespace Foreign
variable {es : List (Yaml.Node × Yaml.Node)} {x : Node} {e : Yaml.Node × Yaml.Node} {spot : Spot}
  {d : Document}

/-- What fits a field is read into it. -/
theorem exists_yields_set (h : Foreign es x) (hfit : Fits es) (he : e ∈ es) {field : String}
    (hfield : fieldOf (among NodeFields.names) e = some field) (f : NodeFields) {below : Spot}
    (hdepth : 0 < below.depth) : ∃ f', Yields (NodeFields.set f field below e.2) f' := by
  obtain ⟨hkey, hmem⟩ := fieldOf_among_eq_some hfield
  have hv := valueAt?_of_mem h.distinct he hkey
  have hwhole := isWhole_of_mem h.whole he
  have htext : ∀ s, e.2.text? = some s → Yields (string below e.2) s :=
    fun s hs => yields_text hs _ _
  simp only [NodeFields.names, List.mem_cons, List.not_mem_nil, or_false] at hmem
  obtain rfl | rfl | rfl | rfl | rfl | rfl | rfl := hmem
  · have hid := h.id
    rw [hv, Option.bind_some] at hid
    exact ⟨_, (htext _ hid).bind (yields_pure _)⟩
  · obtain ⟨s, hs⟩ := Option.isSome_iff_exists.1 (h.scalarParent e.2 hv)
    exact ⟨_, (yields_optional hs (hfit.parent e.2 hv) below).bind (yields_pure _)⟩
  · obtain ⟨s, hs⟩ := Option.isSome_iff_exists.1 (hfit.texts "kind" (by simp) e.2 hv)
    exact ⟨_, (htext s hs).bind (yields_pure _)⟩
  · obtain ⟨s, hs⟩ := Option.isSome_iff_exists.1 (hfit.texts "name" (by simp) e.2 hv)
    exact ⟨_, (htext s hs).bind (yields_pure _)⟩
  · obtain ⟨s, hs⟩ := Option.isSome_iff_exists.1 (hfit.texts "namespace" (by simp) e.2 hv)
    exact ⟨_, (htext s hs).bind (yields_pure _)⟩
  · obtain ⟨l, hl⟩ := exists_yields_labels (hfit.labels e.2 hv) hdepth
    exact ⟨_, hl.bind (yields_pure _)⟩
  · obtain ⟨c, hc⟩ := exists_yields_switches (hfit.policyConfig e.2 hv) hwhole hdepth
    exact ⟨_, hc.bind (yields_pure _)⟩

/-- A field that is not there has no entry. -/
theorem fieldOf_ne (h : Foreign es x) {key : String} (hv : valueAt? es key = none) :
    ∀ e ∈ es, fieldOf (among NodeFields.names) e ≠ some key := by
  intro e he hfield
  rw [valueAt?_of_mem h.distinct he (fieldOf_among_eq_some hfield).1] at hv
  cases hv

section Run
variable (h : Foreign es x) (hfit : Fits es) {a : Partial NodeFields}
  (hrun : Ran d (eachEntry (takeField (among NodeFields.names) NodeFields.set) spot es ⟨[], {}⟩) a)

include h hfit hrun

theorem id_of_ran : a.value.id = x.id := by
  obtain ⟨v, hv, hs⟩ := Option.bind_eq_some_iff.1 h.id
  obtain ⟨f, f', below, hset, heq⟩ := NodeFields.part_of_valueAt? hfit.keys hrun hv (by decide)
    NodeFields.id (fun hne hran => (NodeFields.set_keeps hran).1.resolve_left hne) List.nodup_nil
  obtain ⟨s, hran, rfl⟩ :=
    NodeFields.ran_set (r := string) (g := fun s => { f with id := s }) rfl hset
  rw [heq]
  exact (yields_text hs _ _).eq_of_ran hran

theorem parent_of_ran : a.value.parent = x.parent := by
  have hkeep : ∀ {f f' field below v}, field ≠ "parent" → Ran d (NodeFields.set f field below v) f' →
      f'.parent = f.parent := fun hne hran => (NodeFields.set_keeps hran).2.1.resolve_left hne
  rw [← h.parent]
  cases hv : valueAt? es "parent" with
  | none => exact takeField_keeps hfit.keys hrun hkeep (h.fieldOf_ne hv)
  | some v =>
    obtain ⟨s, hs⟩ := Option.isSome_iff_exists.1 (h.scalarParent v hv)
    obtain ⟨f, f', below, hset, heq⟩ := NodeFields.part_of_valueAt? hfit.keys hrun hv (by decide)
      NodeFields.parent hkeep List.nodup_nil
    obtain ⟨o, hran, rfl⟩ :=
      NodeFields.ran_set (r := optional string) (g := fun o => { f with parent := o }) rfl hset
    rw [heq, Option.bind_some]
    exact (yields_optional hs (hfit.parent v hv) below).eq_of_ran hran

theorem kind_of_ran : a.value.kind ≠ "namespace" ∧ a.value.kind ≠ "podGroup" := by
  have hkeep : ∀ {f f' field below v}, field ≠ "kind" → Ran d (NodeFields.set f field below v) f' →
      f'.kind = f.kind := fun hne hran => (NodeFields.set_keeps hran).2.2.resolve_left hne
  cases hv : valueAt? es "kind" with
  | none =>
    rw [takeField_keeps hfit.keys hrun hkeep (h.fieldOf_ne hv)]
    decide
  | some v =>
    obtain ⟨s, hs⟩ := Option.isSome_iff_exists.1 (hfit.texts "kind" (by simp) v hv)
    have hforeign := h.kind v hv
    obtain ⟨f, f', below, hset, heq⟩ := NodeFields.part_of_valueAt? hfit.keys hrun hv (by decide)
      NodeFields.kind hkeep List.nodup_nil
    obtain ⟨s', hran, rfl⟩ :=
      NodeFields.ran_set (r := string) (g := fun s => { f with kind := s }) rfl hset
    rw [heq, (yields_text hs _ _).eq_of_ran hran]
    rw [hs] at hforeign
    exact ⟨fun heq => hforeign.1 (congrArg some heq), fun heq => hforeign.2 (congrArg some heq)⟩

/-- The fields that were read are those of the unknown node. -/
theorem node_eq : a.value.node = x := by
  have hkind := h.kind_of_ran hfit hrun
  have hid := h.id_of_ran hfit hrun
  have hparent := h.parent_of_ran hfit hrun
  obtain ⟨id, parent, body⟩ := x
  have hbody : body = .unknown := h.body
  rw [NodeFields.node, NodeFields.body, if_neg hkind.1, if_neg hkind.2, hid, hparent, hbody]

end Run

/-- Entries that fit are read as the unknown node, whatever else is among them. -/
theorem yields (h : Foreign es x) (hfit : Fits es) (p : Props) (hdepth : 1 < spot.depth) :
    Yields (Node.read spot (.mapping p es)) x := by
  have hrecord : ∃ f, Yields (record "struct NodeRecord" (among NodeFields.names) ["id"]
      ({} : NodeFields) NodeFields.set spot (.mapping p es)) f := by
    refine exists_yields_record (.mapping p es) (Nat.zero_lt_of_lt hdepth) hfit.keys
      (fun e he => isWhole_of_mem h.whole he) (nodup_fieldOf_among _ h.distinct) ?_ ?_
    · intro e he field hfield f below hbelow
      exact h.exists_yields_set hfit he hfield f (by omega)
    · intro field hrequired
      obtain rfl := List.mem_singleton.1 hrequired
      obtain ⟨v, hv, -⟩ := Option.bind_eq_some_iff.1 h.id
      obtain ⟨e, he, hfield, -⟩ := NodeFields.exists_entry hv (by decide)
      exact List.mem_filterMap.2 ⟨e, he, hfield⟩
  obtain ⟨f, hf⟩ := hrecord
  have hnode : f.node = x := by
    obtain ⟨es', a, hentries, hrun, rfl⟩ := ran_record (hf.ran { root := .cut })
    obtain rfl : es' = es := EntriesOf.eq hentries
    exact h.node_eq hfit hrun
  rw [← hnode, Node.read, map_eq_pure_bind]
  exact hf.bind (yields_pure _)

end Foreign

/-- Entries without aliases that are read as a node fit. -/
theorem fits_of_ran {es : List (Yaml.Node × Yaml.Node)} (hnone : Yaml.Node.aliasesEntries es = [])
    {d : Document} {spot : Spot} {p : Props} {x : Node}
    (h : Ran d (Node.read spot (.mapping p es)) x) : Fits es := by
  rw [Node.read, map_eq_pure_bind] at h
  obtain ⟨f, h, -⟩ := ran_bind h
  obtain ⟨es', a, hentries, hrun, -⟩ := ran_record h
  obtain rfl : es' = es := EntriesOf.eq hentries
  have hkeys := isSome_text?_of_ran hnone hrun
  have haliases : ∀ {key v}, valueAt? es' key = some v → v.aliases = [] := by
    intro key v hv
    obtain ⟨e, he, -, rfl⟩ := mem_of_valueAt? hv
    exact (aliases_of_mem hnone he).2
  have hset : ∀ {key v}, valueAt? es' key = some v → key ∈ NodeFields.names →
      ∃ f f' below, Ran d (NodeFields.set f key below v) f' :=
    fun hv hmem => NodeFields.ran_set_of_valueAt? hkeys hrun hv hmem List.nodup_nil
  have htext : ∀ {spot : Spot} {s v}, v.aliases = [] → Ran d (string spot v) s →
      v.text?.isSome = true := by
    intro spot s v hv hs
    rw [text?_of_ran hv hs, Option.isSome_some]
  constructor
  case keys => exact hkeys
  case texts =>
    intro key hmem v hv
    simp only [List.mem_cons, List.not_mem_nil, or_false] at hmem
    obtain rfl | rfl | rfl := hmem
    all_goals obtain ⟨f, f', below, hset⟩ := hset hv (by decide)
    · obtain ⟨s, hs, -⟩ :=
        NodeFields.ran_set (r := string) (g := fun s => { f with kind := s }) rfl hset
      exact htext (haliases hv) hs
    · obtain ⟨s, hs, -⟩ :=
        NodeFields.ran_set (r := string) (g := fun s => { f with group.name := s }) rfl hset
      exact htext (haliases hv) hs
    · obtain ⟨s, hs, -⟩ :=
        NodeFields.ran_set (r := string) (g := fun s => { f with group.ns := s }) rfl hset
      exact htext (haliases hv) hs
  case parent =>
    intro v hv
    obtain ⟨f, f', below, hset⟩ := hset hv (by decide)
    obtain ⟨o, ho, -⟩ :=
      NodeFields.ran_set (r := optional string) (g := fun o => { f with parent := o }) rfl hset
    exact tagAgrees_of_ran (haliases hv) ho
  case labels =>
    intro v hv
    obtain ⟨f, f', below, hset⟩ := hset hv (by decide)
    obtain ⟨l, hl, -⟩ :=
      NodeFields.ran_set (r := Labels.read) (g := fun l => { f with group.labels := l }) rfl hset
    exact isTextMap_of_ran (haliases hv) hl
  case policyConfig =>
    intro v hv
    obtain ⟨f, f', below, hset⟩ := hset hv (by decide)
    obtain ⟨c, hc, -⟩ := NodeFields.ran_set (r := DefaultDeny.read)
      (g := fun c => { f with group.defaultDeny := c }) rfl hset
    exact isSwitches_of_ran (haliases hv) hc

end NetGraph
