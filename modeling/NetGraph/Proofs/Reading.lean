import NetGraph.Proofs.PlainScalar
import NetGraph.Proofs.TreeShape
import NetGraph.Yaml.Reader

/-!
# Readers on the trees of written values

* `Reads` : a reader that may enter so many levels of collections reads every tree of the shape of a
  value as one and the same thing;
* `reads_string`, `Reads.optional_scalar`, `Reads.sequence`, `reads_bool` and `Fills.record` : what the
  readers make of the values of their kind, from what they make of the parts;
* `Reads.document` : from the root to the whole document.
-/

namespace NetGraph.Yaml

namespace Reader

/-! ## Readings that succeed -/

section Yields
variable {α β : Type}

/-- The reading gives `a`, whatever the document, and follows no alias. -/
def Yields (r : Reader α) (a : α) : Prop := ∀ d jumps, r d jumps = .ok (a, jumps)

theorem yields_pure (a : α) : Yields (pure a) a := fun _ _ => rfl

theorem Yields.bind {r : Reader α} {k : α → Reader β} {a : α} {b : β} (h : Yields r a)
    (hk : Yields (k a) b) : Yields (r >>= k) b := by
  intro d jumps
  change (r d jumps >>= fun x => k x.1 d x.2) = .ok (b, jumps)
  rw [h d jumps]
  exact hk d jumps

theorem Yields.placed {r : Reader α} {a : α} (h : Yields r a) (mark : Mark) (spot : Spot) :
    Yields (placed mark spot r) a := by
  intro d jumps
  unfold Reader.placed
  rw [h d jumps]

theorem Yields.entering {r : Spot → Reader α} {a : α} {spot : Spot} (hdepth : 0 < spot.depth)
    (h : Yields (r spot.enter) a) (mark : Mark) : Yields (entering mark spot r) a := by
  unfold Reader.entering
  rw [if_neg (Nat.pos_iff_ne_zero.1 hdepth)]
  exact h.placed mark spot

end Yields

/-- The reader makes `a` of every tree of the value `v`, if it may enter `levels` collections. -/
def Reads {α : Type} (r : Spot → Node → Reader α) (levels : Nat) (v : Value) (a : α) : Prop :=
  ∀ spot n, levels ≤ spot.depth → n.shape = v.node.shape → Yields (r spot n) a

section Reads
variable {α : Type} {r : Spot → Node → Reader α} {levels : Nat} {v : Value} {a : α}

theorem Reads.mono (h : Reads r levels v a) {more : Nat} (hle : levels ≤ more) : Reads r more v a :=
  fun spot n hdepth hn => h spot n (Nat.le_trans hle hdepth) hn

theorem Reads.document {d : Document} (h : Reads r levels v a) (hlevels : levels ≤ 128)
    (hd : d.shape = v.document.shape) : d.read r = .ok a := by
  obtain ⟨hroot, hfailure, hcontinues⟩ := Document.mk.inj hd
  unfold Document.read
  rw [h {} d.root hlevels hroot d 0]
  simp only [hfailure, hcontinues]
  rfl

end Reads

theorem Reads.congr {α : Type} {r r' : Spot → Node → Reader α} {levels : Nat} {v : Value} {a : α}
    (h : Reads r levels v a) (hr : ∀ spot n, r' spot n = r spot n) : Reads r' levels v a := by
  intro spot n hdepth hn
  rw [hr]
  exact h spot n hdepth hn

/-- What is read as `b` gives `f b` to a reader that goes on with `f`. -/
theorem Reads.field {α β : Type} {r : Spot → Node → Reader β} {r' : Spot → Node → Reader α}
    {levels : Nat} {v : Value} {b : β} (h : Reads r levels v b) (f : β → α)
    (hr : ∀ spot n, r' spot n = r spot n >>= fun x => pure (f x)) : Reads r' levels v (f b) := by
  intro spot n hdepth hn
  rw [hr]
  exact (h spot n hdepth hn).bind (yields_pure _)

/-! ## Texts, words and booleans -/

section Scalars
variable {levels : Nat}

theorem reads_text (expected s : String) : Reads (text expected) levels (.text s) s := by
  intro spot n _ hn
  rw [Value.node] at hn
  obtain ⟨m, style, rfl, -⟩ := Node.eq_scalar_of_shape hn
  exact fun _ _ => rfl

theorem reads_string (s : String) : Reads string levels (.text s) s := reads_text "a string" s

theorem reads_choice {α : Type} {known : List String} {parse : String → Option α} {s : String}
    {a : α} (h : parse s = some a) : Reads (choice known parse) levels (.text s) a := by
  intro spot n _ hn
  rw [Value.node] at hn
  obtain ⟨m, style, rfl, -⟩ := Node.eq_scalar_of_shape hn
  have hv : Yields (variant known parse s) a := by
    unfold variant
    rw [h]
    exact yields_pure a
  exact hv.placed m spot

theorem reads_bool (b : Bool) : Reads bool levels (.bool b) b := by
  intro spot n _ hn
  rw [Value.node] at hn
  obtain ⟨m, style, rfl, hplain⟩ := Node.eq_scalar_of_shape hn
  obtain rfl := hplain.2 rfl
  cases b <;> exact fun _ _ => rfl

end Scalars

/-- A text that would be read as something else is not written plain. -/
theorem resolve_of_style {s : String} (h : Style.of s = .plain) : PlainValue.resolve s = .text := by
  unfold Style.of at h
  simp only at h
  split at h
  · split at h <;> cases h
  · split at h
    · next hplain =>
      simp only [Bool.and_eq_true, Bool.not_eq_true', needsQuotes, Bool.or_eq_false_iff,
        bne_eq_false_iff_eq] at hplain
      exact hplain.1.1
    · split at h <;> cases h

theorem not_isNull_of_resolve {s : String} (h : PlainValue.resolve s ≠ .null) :
    (s.isEmpty || isNull s) = false := by
  rw [← Bool.not_eq_true]
  intro hnull
  rw [PlainValue.resolve, if_pos hnull] at h
  exact h rfl

/-! ## What may be absent -/

section Optional
variable {α : Type} {r : Spot → Node → Reader α} {levels : Nat}

/-- A scalar that is not null is there. -/
theorem Reads.optional_scalar {v : Value} {style : Style} {s : String} {a : α}
    (h : Reads r levels v a) (hv : v.node = .scalar { mark := {} } style s)
    (hplain : style = .plain → PlainValue.resolve s ≠ .null) :
    Reads (optional r) levels v (some a) := by
  intro spot n hdepth hn
  have hr := h spot n hdepth hn
  rw [hv] at hn
  obtain ⟨m, style', rfl, hstyle⟩ := Node.eq_scalar_of_shape hn
  refine Yields.bind (a := Node.scalar { mark := m } style' s) (fun _ _ => rfl) ?_
  split
  · next heq =>
    obtain ⟨rfl, hstyle', rfl⟩ := Node.scalar.inj heq
    have hnull := not_isNull_of_resolve (hplain (hstyle.1 hstyle'))
    simp only [hnull, reduceCtorEq, if_false, Bool.and_false, Bool.false_eq_true]
    exact hr.bind (yields_pure _)
  · exact hr.bind (yields_pure _)

theorem Reads.optional_text {s : String} {a : α} (h : Reads r levels (.text s) a) :
    Reads (optional r) levels (.text s) (some a) := by
  refine h.optional_scalar (by rw [Value.node]) fun hstyle => ?_
  rw [resolve_of_style hstyle]
  decide

theorem Reads.optional_nat {n : Nat} {a : α} (h : Reads r levels (.nat n) a)
    (hn : n < Nat.pow 2 128) : Reads (optional r) levels (.nat n) (some a) := by
  refine h.optional_scalar (by rw [Value.node]) fun _ => ?_
  rw [PlainValue.resolve_toString hn]
  exact PlainValue.noConfusion

theorem Reads.optional_seq {items : List Value} {a : α} (h : Reads r levels (.seq items) a) :
    Reads (optional r) levels (.seq items) (some a) := by
  intro spot n hdepth hn
  have hr := h spot n hdepth hn
  rw [Value.node] at hn
  obtain ⟨m, items', rfl, -⟩ := Node.eq_sequence_of_shape hn
  exact Yields.bind (fun _ _ => rfl) (hr.bind (yields_pure _))

theorem Reads.optional_map {entries : List (String × Value)} {a : α}
    (h : Reads r levels (.map entries) a) : Reads (optional r) levels (.map entries) (some a) := by
  intro spot n hdepth hn
  have hr := h spot n hdepth hn
  rw [Value.node] at hn
  obtain ⟨m, entries', rfl, -⟩ := Node.eq_mapping_of_shape hn
  exact Yields.bind (fun _ _ => rfl) (hr.bind (yields_pure _))

end Optional

/-! ## Lists -/

section Sequence
variable {α : Type} {r : Spot → Node → Reader α} {levels : Nat}

theorem yields_itemsFrom {f : α → Value} {spot : Spot} {as : List α} {items : List Node}
    (h : ∀ a ∈ as, Reads r levels (f a) a) (hdepth : levels ≤ spot.depth)
    (hitems : Node.shapes items = Node.shapes (Value.nodes (as.map f))) (i : Nat) :
    Yields (itemsFrom r spot i items) as := by
  induction as generalizing items i with
  | nil =>
    cases items with
    | nil => exact yields_pure []
    | cons n rest => simp [Node.shapes, Value.nodes] at hitems
  | cons a as ih =>
    cases items with
    | nil => simp [Node.shapes, Value.nodes] at hitems
    | cons n rest =>
      rw [List.map_cons, Value.nodes, Node.shapes, Node.shapes, List.cons.injEq] at hitems
      have ha := h a List.mem_cons_self (spot.step (.item i)) n hdepth hitems.1
      have has := ih (fun x hx => h x (List.mem_cons_of_mem a hx)) hitems.2 (i + 1)
      exact ha.bind (has.bind (yields_pure _))

theorem Reads.sequence {f : α → Value} {as : List α} (h : ∀ a ∈ as, Reads r levels (f a) a) :
    Reads (sequence r) (levels + 1) (.seq (as.map f)) as := by
  intro spot n hdepth hn
  rw [Value.node] at hn
  obtain ⟨m, items, rfl, hitems⟩ := Node.eq_sequence_of_shape hn
  have hall : Yields (itemsFrom r spot.enter 0 items) as :=
    yields_itemsFrom h (Nat.le_sub_of_add_le hdepth) hitems 0
  exact Yields.entering (r := fun spot => itemsFrom r spot 0 items) (Nat.zero_lt_of_lt hdepth)
    hall m

end Sequence

/-! ## Mappings -/

section Entries
variable {α β : Type}

/-- What a mapping is read with: one entry after the other, each from the value so far. -/
def eachEntry (step : α → Spot → Node → Spot → Node → Reader α) (spot : Spot)
    (es : List (Node × Node)) (a : α) : Reader α :=
  es.foldlM (fun a e => step a spot e.1 (spot.step (stepOf e.1)) e.2) a

section EachEntry
variable {step : α → Spot → Node → Spot → Node → Reader α} {spot : Spot} {es : List (Node × Node)}

theorem eachEntry_cons (e : Node × Node) (a : α) :
    eachEntry step spot (e :: es) a =
      step a spot e.1 (spot.step (stepOf e.1)) e.2 >>= eachEntry step spot es :=
  List.foldlM_cons

theorem entries_mapping {expected : String} {init : α} {finish : α → Reader β} (p : Props) :
    entries expected init step finish spot (.mapping p es) =
      entering p.mark spot fun spot => eachEntry step spot es init >>= finish := rfl

end EachEntry

theorem stepOf_of_shape {k : Node} {key : String} (h : k.shape = (Value.text key).node.shape) :
    stepOf k = .key key := by
  rw [Value.node] at h
  obtain ⟨m, style, rfl, -⟩ := Node.eq_scalar_of_shape h
  rfl

/--
Entry by entry, `step` takes the value read so far to the next one, from `a` to `b`, with every key
and value at hand as trees.
-/
inductive Steps (step : α → Spot → Node → Spot → Node → Reader α) (levels : Nat) :
    α → List (String × Value) → α → Prop where
  | nil (a : α) : Steps step levels a [] a
  | cons {a b c : α} {key : String} {v : Value} {rest : List (String × Value)} :
      (∀ spot k n, levels ≤ spot.depth → k.shape = (Value.text key).node.shape →
        n.shape = v.node.shape →
        Yields (step a spot k (spot.step (.key key)) n) b) →
      Steps step levels b rest c → Steps step levels a ((key, v) :: rest) c

theorem Steps.eachEntry {step : α → Spot → Node → Spot → Node → Reader α} {levels : Nat} {a b : α}
    {kvs : List (String × Value)} (h : Steps step levels a kvs b) (spot : Spot)
    (hdepth : levels ≤ spot.depth) {es : List (Node × Node)}
    (hes : Node.entryShapes es = Node.entryShapes (Value.entryNodes kvs)) :
    Yields (eachEntry step spot es a) b := by
  induction h generalizing es with
  | nil a =>
    cases es with
    | nil => exact yields_pure a
    | cons e rest => simp [Node.entryShapes, Value.entryNodes] at hes
  | cons hstep _ ih =>
    cases es with
    | nil => simp [Node.entryShapes, Value.entryNodes] at hes
    | cons e rest =>
      rw [Value.entryNodes, Node.entryShapes, Node.entryShapes, List.cons.injEq,
        Prod.mk.injEq] at hes
      obtain ⟨⟨hk, hv⟩, hrest⟩ := hes
      have hone := hstep spot e.1 e.2 hdepth hk hv
      rw [← stepOf_of_shape hk] at hone
      rw [eachEntry_cons]
      exact hone.bind (ih hrest)

theorem Steps.entries {expected : String} {step : α → Spot → Node → Spot → Node → Reader α}
    {levels : Nat} {init a : α} {finish : α → Reader β} {b : β} {kvs : List (String × Value)}
    (h : Steps step levels init kvs a) (hfinish : Yields (finish a) b) :
    Reads (entries expected init step finish) (levels + 1) (.map kvs) b := by
  intro spot n hdepth hn
  rw [Value.node] at hn
  obtain ⟨m, es, rfl, hes⟩ := Node.eq_mapping_of_shape hn
  have hfold := h.eachEntry spot.enter (Nat.le_sub_of_add_le hdepth) hes
  rw [entries_mapping]
  exact Yields.entering (Nat.zero_lt_of_lt hdepth) (hfold.bind hfinish) m

end Entries

/-! ## Records -/

section Records
variable {α : Type} {canonical : String → Option String} {set : α → String → Spot → Node → Reader α}

/-- Field by field, `set` fills `a` with the values until it is `b`. -/
inductive Fills (set : α → String → Spot → Node → Reader α) (levels : Nat) :
    α → List (String × Value) → α → Prop where
  | nil (a : α) : Fills set levels a [] a
  | cons {a b c : α} {field : String} {v : Value} {rest : List (String × Value)} :
      Reads (set a field) levels v b → Fills set levels b rest c →
      Fills set levels a ((field, v) :: rest) c

theorem Fills.steps {levels : Nat} {a b : α} {kvs : List (String × Value)}
    (h : Fills set levels a kvs b) (hknown : ∀ e ∈ kvs, canonical e.1 = some e.1)
    (hnodup : (kvs.map (·.1)).Nodup) (seen : List String) (hseen : ∀ e ∈ kvs, e.1 ∉ seen) :
    Steps (takeField canonical set) levels ⟨seen, a⟩ kvs ⟨(kvs.map (·.1)).reverse ++ seen, b⟩ := by
  induction h generalizing seen with
  | nil a => exact .nil _
  | @cons a b c field v rest hset _ ih =>
    rw [List.map_cons, List.nodup_cons] at hnodup
    rw [List.forall_mem_cons] at hknown hseen
    have hrest := ih hknown.2 hnodup.2 (field :: seen) (by
      intro e he
      rw [List.mem_cons, not_or]
      exact ⟨fun heq => hnodup.1 (List.mem_map.2 ⟨e, he, heq⟩), hseen.2 e he⟩)
    rw [List.map_cons, List.reverse_cons, List.append_assoc, List.singleton_append]
    refine .cons ?_ hrest
    intro spot k n hdepth hk hn
    have hkey := reads_text "field identifier" field spot k (Nat.zero_le _) hk
    refine hkey.bind ?_
    simp only [hknown.1, hseen.1, if_false]
    exact (hset (spot.step (.key field)) n hdepth hn).bind (yields_pure _)

theorem Fills.append {levels : Nat} {a b c : α} {kvs kvs' : List (String × Value)}
    (h : Fills set levels a kvs b) (h' : Fills set levels b kvs' c) :
    Fills set levels a (kvs ++ kvs') c := by
  induction h with
  | nil a => exact h'
  | cons hset _ ih => exact .cons hset (ih h')

/-- A field that is written where there is something. -/
theorem Fills.optional {β : Type} {levels : Nat} {key : String} {w : β → Value} {a b : α}
    {o : Option β} (hnone : o = none → a = b)
    (hsome : ∀ x, o = some x → Reads (set a key) levels (w x) b) :
    Fills set levels a (o.map fun x => (key, w x)).toList b := by
  cases o with
  | none => exact hnone rfl ▸ .nil a
  | some x => exact .cons (hsome x rfl) (.nil b)

theorem Fills.record {expected : String} {fields required : List String} {levels : Nat} {init b : α}
    {kvs : List (String × Value)} (h : Fills set levels init kvs b) (hfields : fields.Nodup)
    (hsub : (kvs.map (·.1)).Sublist fields) (hrequired : ∀ f ∈ required, f ∈ kvs.map (·.1)) :
    Reads (record expected (among fields) required init set) (levels + 1) (.map kvs) b := by
  have hknown : ∀ e ∈ kvs, among fields e.1 = some e.1 :=
    fun e he => if_pos (hsub.mem (List.mem_map_of_mem he))
  have hsteps := h.steps hknown (hsub.nodup hfields) [] (fun _ _ => List.not_mem_nil)
  refine hsteps.entries ?_
  have hfind : required.find? (· ∉ (kvs.map (·.1)).reverse ++ []) = none := by
    rw [List.find?_eq_none]
    intro f hf
    simpa using hrequired f hf
  simp only [hfind]
  exact yields_pure b

end Records

end Reader
end NetGraph.Yaml
