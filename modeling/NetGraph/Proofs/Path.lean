import NetGraph.Proofs.Files

/-!
# A name in a directory

* `splitOn_slash` : the pieces of a text between slashes, as the pieces of its list of characters;
* `FilePath.parts_append_slash` : the parts before and behind a slash are told apart;
* `IsFileName` : a part of a path that names an entry of a directory;
* `FilePath.parts_inside` : so such a name inside of a directory adds itself to the parts, and
  leads to an entry of that very directory (`FileTree.place_inside_iff`).
-/

namespace NetGraph

/-! ## Pieces between slashes -/

section Pieces
open String

/-- The pieces that remain at the end of `l ++ m`, where the current one starts behind `l`. -/
theorem splitOnAux_slash (l m r : List Char) (acc : List String) :
    (ofList (l ++ m ++ r)).splitOnAux "/" ⟨utf8Len l⟩ ⟨utf8Len l + utf8Len m⟩ 0 acc =
      acc.reverse ++ (r.splitOnPPrepend (· == '/') m.reverse).map ofList := by
  induction r generalizing l m acc with
  | nil =>
    rw [splitOnAux.eq_def, if_pos (by simp [-ofList_append, atEnd_iff])]
    simpa using extract_of_valid l m []
  | cons c r ih =>
    have hmore : ¬ Pos.Raw.atEnd (ofList (l ++ m ++ c :: r)) ⟨utf8Len l + utf8Len m⟩ = true := by
      have hpos := Char.utf8Size_pos c
      rw [atEnd_iff, rawEndPos_ofList, utf8Len_append, utf8Len_append, utf8Len_cons,
        Pos.Raw.mk_le_mk]
      omega
    have hget := get_of_valid (l ++ m) (c :: r)
    have hnext := next_of_valid (l ++ m) c r
    have hslash : Pos.Raw.get "/" 0 = '/' := get_of_valid [] ['/']
    have hover : Pos.Raw.next "/" 0 = ⟨1⟩ := next_of_valid [] '/' []
    rw [utf8Len_append] at hget hnext
    rw [splitOnAux.eq_def, if_neg hmore, hget, hslash, List.headD_cons,
      List.splitOnPPrepend_cons_eq_if, List.reverse_reverse]
    by_cases hc : (c == '/') = true
    · -- the piece `m` ends here, and the next one starts behind the slash
      obtain rfl := beq_iff_eq.1 hc
      have hend : (Pos.Raw.mk (utf8Len l + utf8Len m + '/'.utf8Size)).unoffsetBy ⟨1⟩ =
          ⟨utf8Len l + utf8Len m⟩ := rfl
      simp only [if_pos hc, hnext, hover]
      rw [if_pos (by decide), hend, extract_of_valid l m ('/' :: r)]
      simpa [-ofList_append, Nat.add_assoc] using ih (l ++ m ++ ['/']) [] (ofList m :: acc)
    · have hback : (Pos.Raw.mk (utf8Len l + utf8Len m)).unoffsetBy 0 =
          ⟨utf8Len l + utf8Len m⟩ := rfl
      rw [if_neg hc, if_neg hc, hback, hnext]
      simpa [-ofList_append, Nat.add_assoc] using ih l (m ++ [c]) acc

theorem splitOn_slash (s : String) :
    s.splitOn "/" = (s.toList.splitOnP (· == '/')).map ofList := by
  have haux := splitOnAux_slash [] [] s.toList []
  rw [List.nil_append, List.nil_append, ofList_toList] at haux
  exact haux

end Pieces

/-! ## Parts of a path -/

/-- The name of an entry of a directory: one part of a path, and no dots that lead elsewhere. -/
structure IsFileName (name : String) : Prop where
  noSlash : '/' ∉ name.toList
  nonempty : name ≠ ""
  notDots : ¬ (name = "." ∨ name = "..")

namespace FilePath

theorem parts_eq (path : String) :
    parts path =
      ((path.toList.splitOnP (· == '/')).filter (!·.isEmpty)).map String.ofList := by
  have hempty : (fun s : String => !s.isEmpty) ∘ String.ofList = fun cs => !cs.isEmpty := by
    funext cs
    cases cs <;> simp
  rw [parts, splitOn_slash, List.filter_map, hempty]

theorem parts_append_slash (a b : String) : parts (a ++ "/" ++ b) = parts a ++ parts b := by
  have hchars : (a ++ "/" ++ b).toList = a.toList ++ '/' :: b.toList := by simp
  rw [parts_eq, parts_eq, parts_eq, hchars, List.splitOnP_append_cons _ _ (by decide),
    List.filter_append, List.map_append]

theorem parts_empty : parts "" = [] := by
  rw [parts_eq]
  rfl

theorem parts_of_isFileName {name : String} (h : IsFileName name) : parts name = [name] := by
  have hne : name.toList ≠ [] := by simpa using h.nonempty
  have hnone : ∀ c ∈ name.toList, ¬ (c == '/') = true := by
    rintro c hc hslash
    exact h.noSlash (beq_iff_eq.1 hslash ▸ hc)
  rw [parts_eq, List.splitOnP_eq_singleton (by simpa using hnone)]
  simp [hne]

/-- A directory whose path ends in a slash, as the path before it. -/
theorem exists_of_endsInSlash {dir : String} (h : endsInSlash dir = true) :
    ∃ above : String, dir = above ++ "/" := by
  have hlast : dir.toList.getLast? = some '/' := by simpa [endsInSlash] using h
  obtain ⟨cs, hcs⟩ := List.getLast?_eq_some_iff.1 hlast
  refine ⟨String.ofList cs, String.toList_inj.1 ?_⟩
  simp [hcs]

theorem parts_inside {name : String} (h : IsFileName name) (dir : String) :
    parts (inside dir name) = parts dir ++ [name] := by
  have hname := parts_of_isFileName h
  unfold inside
  by_cases hempty : dir = ""
  · subst hempty
    rw [if_pos (by decide), String.empty_append, hname, parts_empty]
    rfl
  by_cases hslash : endsInSlash dir = true
  · obtain ⟨above, rfl⟩ := exists_of_endsInSlash hslash
    have habove := parts_append_slash above ""
    rw [String.append_empty, parts_empty, List.append_nil] at habove
    rw [if_pos (by simp [hslash]), parts_append_slash, hname, habove]
  · rw [if_neg (by simp [hempty, hslash]), parts_append_slash, hname]

theorem isAbsolute_inside {name : String} (h : IsFileName name) (dir : String) :
    isAbsolute (inside dir name) = isAbsolute dir := by
  unfold isAbsolute inside
  by_cases hempty : dir = ""
  · subst hempty
    have hhead : name.toList.head? ≠ some '/' := fun hc => h.noSlash (List.mem_of_head? hc)
    simpa using hhead
  · obtain ⟨c, cs, hcs⟩ := List.exists_cons_of_ne_nil (l := dir.toList) (by simpa using hempty)
    split <;> simp [hcs]

end FilePath

/-! ## The place of a name in a directory -/

/-- The directory that a path leads to, if each of its parts is one. -/
def FileTree.directory (t : FileTree) (path : String) : Except FileError (List String) :=
  t.walk (if FilePath.isAbsolute path then [FileTree.root] else []) (FilePath.parts path)

/-- A name inside of a directory leads to the entry with this name there, or nowhere. -/
theorem FileTree.place_inside_iff {name : String} (h : IsFileName name) {t : FileTree}
    {dir : String} {place : Place} :
    t.place (FilePath.inside dir name) = .ok place ↔
      Admissible (FilePath.inside dir name) ∧
      ∃ here, t.directory dir = .ok here ∧ place = .name here name := by
  have hlast : (FilePath.parts (FilePath.inside dir name)).getLast? = some name := by
    rw [FilePath.parts_inside h, List.getLast?_concat]
  have hinit : (FilePath.parts (FilePath.inside dir name)).dropLast = FilePath.parts dir := by
    rw [FilePath.parts_inside h, List.dropLast_concat]
  by_cases hpath : Admissible (FilePath.inside dir name)
  swap
  · exact iff_of_false (fun hp => hpath (admissible_of_place hp)) (fun hp => hpath hp.1)
  rw [and_iff_right hpath]
  have ⟨hzero, hempty, hlong⟩ := hpath
  unfold FileTree.place
  rw [if_neg hzero, if_neg (by simp [hempty]), if_neg (by omega)]
  dsimp only
  rw [hlast, hinit, FilePath.isAbsolute_inside h]
  dsimp only
  rw [if_neg h.notDots, ← directory]
  cases t.directory dir with
  | error e => exact iff_of_false nofun (fun ⟨_, hd, _⟩ => nomatch hd)
  | ok here =>
    constructor
    · intro hp
      exact ⟨here, rfl, (Except.ok.inj hp).symm⟩
    · rintro ⟨_, hd, rfl⟩
      obtain rfl := Except.ok.inj hd
      rfl

end NetGraph
