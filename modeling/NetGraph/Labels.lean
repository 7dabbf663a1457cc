/-!
# Label maps

* `Labels` : texts under texts, each key once, in the order of the keys by code point;
* `Labels.insert` : the new value replaces the old one;
* `Labels.entries_foldl_insert` : entries with greater and greater keys are put at the end;
* `Labels.ofList_entries` : a label map is the map of its own entries, so writing the entries in
  order and reading them back gives the same map.
-/

namespace NetGraph

/-- A map from texts to texts; `entries` holds each key once, in increasing order. -/
structure Labels where
  entries : List (String × String)
  sorted : entries.Pairwise (fun a b => a.1 < b.1)
  deriving DecidableEq

namespace Labels

@[ext]
theorem ext {a b : Labels} (h : a.entries = b.entries) : a = b := by
  cases a; cases b; simp_all

/-- `insertEntry k v` puts `v` under `k` into a list that is sorted by key. -/
def insertEntry (k v : String) : List (String × String) → List (String × String)
  | [] => [(k, v)]
  | e :: rest =>
    if k < e.1 then (k, v) :: e :: rest
    else if k = e.1 then (k, v) :: rest
    else e :: insertEntry k v rest

theorem mem_insertEntry {k v : String} {x : String × String} {es : List (String × String)}
    (h : x ∈ insertEntry k v es) : x = (k, v) ∨ x ∈ es := by
  induction es with
  | nil => simpa [insertEntry] using h
  | cons e rest ih =>
    rw [insertEntry] at h
    split at h
    · simpa using h
    · split at h
      · rcases List.mem_cons.1 h with h | h
        · exact .inl h
        · exact .inr (List.mem_cons_of_mem _ h)
      · rcases List.mem_cons.1 h with h | h
        · exact .inr (h ▸ List.mem_cons_self)
        · exact (ih h).imp_right (List.mem_cons_of_mem _)

theorem pairwise_insertEntry (k v : String) {es : List (String × String)}
    (h : es.Pairwise (fun a b => a.1 < b.1)) :
    (insertEntry k v es).Pairwise (fun a b => a.1 < b.1) := by
  induction es with
  | nil => simp [insertEntry]
  | cons e rest ih =>
    have hr := List.pairwise_cons.1 h
    rw [insertEntry]
    split
    · rename_i hk
      refine List.pairwise_cons.2 ⟨fun x hx => ?_, h⟩
      rcases List.mem_cons.1 hx with rfl | hx
      · exact hk
      · exact String.lt_trans hk (hr.1 x hx)
    · split
      · rename_i hk
        exact List.pairwise_cons.2 ⟨fun x hx => hk ▸ hr.1 x hx, hr.2⟩
      · rename_i h₁ h₂
        refine List.pairwise_cons.2 ⟨fun x hx => ?_, ih hr.2⟩
        rcases mem_insertEntry hx with rfl | hx
        · rcases String.le_total k e.1 with hle | hle
          · exact absurd (String.le_antisymm hle (String.not_lt.1 h₁)) h₂
          · exact Decidable.byContradiction fun hn =>
              h₂ (String.le_antisymm (String.not_lt.1 hn) hle)
        · exact hr.1 x hx

def empty : Labels := ⟨[], .nil⟩

instance : EmptyCollection Labels := ⟨empty⟩
instance : Inhabited Labels := ⟨empty⟩

instance : Repr Labels := ⟨fun l _ => repr l.entries⟩

/-- Puts `v` under `k`, in place of what was there. -/
def insert (l : Labels) (k v : String) : Labels :=
  ⟨insertEntry k v l.entries, pairwise_insertEntry k v l.sorted⟩

/-- The map of the pairs; of two with one key the later counts. -/
def ofList (es : List (String × String)) : Labels :=
  es.foldl (fun l e => l.insert e.1 e.2) ∅

def singleton (k v : String) : Labels := ⟨[(k, v)], List.pairwise_singleton _ _⟩

def isEmpty (l : Labels) : Bool := l.entries.isEmpty

/-- The keys, each once, in increasing order (`pairwise_keys`). -/
def keys (l : Labels) : List String := l.entries.map (·.1)

theorem pairwise_keys (l : Labels) : l.keys.Pairwise (· < ·) := List.pairwise_map.2 l.sorted

theorem insertEntry_of_lt {k v : String} {es : List (String × String)}
    (h : ∀ e ∈ es, e.1 < k) : insertEntry k v es = es ++ [(k, v)] := by
  induction es with
  | nil => rfl
  | cons e rest ih =>
    have he := h e List.mem_cons_self
    rw [insertEntry, if_neg (String.lt_asymm he), if_neg (fun hk => String.lt_irrefl _ (hk ▸ he)),
      ih fun x hx => h x (List.mem_cons_of_mem _ hx), List.cons_append]

theorem entries_foldl_insert (es : List (String × String)) (l : Labels)
    (h : (l.keys ++ es.map (·.1)).Pairwise (· < ·)) :
    (es.foldl (fun l e => l.insert e.1 e.2) l).entries = l.entries ++ es := by
  induction es generalizing l with
  | nil => simp
  | cons e rest ih =>
    have hlast : ∀ x ∈ l.entries, x.1 < e.1 := fun x hx =>
      (List.pairwise_append.1 h).2.2 x.1 (List.mem_map_of_mem hx) e.1 List.mem_cons_self
    have hl : (l.insert e.1 e.2).entries = l.entries ++ [e] := insertEntry_of_lt hlast
    have hkeys : (l.insert e.1 e.2).keys = l.keys ++ [e.1] := by
      rw [keys, hl, List.map_append, List.map_singleton, keys]
    rw [List.foldl_cons, ih _ (by rw [hkeys]; simpa using h), hl, List.append_assoc,
      List.singleton_append]

theorem ofList_entries (l : Labels) : ofList l.entries = l :=
  ext (entries_foldl_insert l.entries ∅ l.pairwise_keys)

end Labels
end NetGraph
