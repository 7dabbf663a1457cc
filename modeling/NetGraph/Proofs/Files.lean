import NetGraph.Files.Tree
import Mathlib

/-!
# Files and their contents

* `FileView` : what is assumed of a file system, told by the contents of its files. Directories do
  not count: they may be made on the way;
* `FileView.Writes` : one file holds a text, and all others are as before. `FileView.Keeps` : no file
  is new or changed;
* `FileView.put_cases` : a text is put into its file, or the attempt keeps all files;
* `Files.textAt` : what is read at a path. `FileView.content_of_textAt` : it is what the file holds;
* `FileTree.view` : files as data meet the assumptions. The step is `FileTree.item?_set`; with it a
  path leads to the same place before and after a file is written (`FileTree.place_set`).
-/

namespace NetGraph

/--
A file system whose actions change a state of type `σ`, seen as files with their contents. What is
asked of its actions is what is documented of them; in particular an action that fails leaves the
contents of all files as they were.
-/
structure FileView (σ : Type) [Files (StateM σ)] where
  /-- What a file is known by, whatever paths lead to it. -/
  Place : Type
  /-- What a file holds, if there is one. -/
  content : σ → Place → Option ByteArray
  /-- The file that a path leads to. -/
  file? : σ → String → Option Place
  /-- Reading changes nothing. -/
  readBytes_snd : ∀ path s, ((Files.readBytes path : StateM σ _).run s).2 = s
  /-- What is read is the content of the file that the path leads to. -/
  readBytes_fst : ∀ path s bytes, ((Files.readBytes path : StateM σ _).run s).1 = .ok bytes →
    ∃ place, file? s path = some place ∧ content s place = some bytes
  isDir_content : ∀ path s, content ((Files.isDir path : StateM σ _).run s).2 = content s
  makeDir_content : ∀ path s, content ((Files.makeDir path : StateM σ _).run s).2 = content s
  writeText_error : ∀ path text s e, ((Files.writeText path text : StateM σ _).run s).1 = .error e →
    content ((Files.writeText path text : StateM σ _).run s).2 = content s
  /-- What is written becomes the content of the file that the path leads to, and of no other. -/
  writeText_ok : ∀ path text s, ((Files.writeText path text : StateM σ _).run s).1 = .ok () →
    ∃ place, file? ((Files.writeText path text : StateM σ _).run s).2 path = some place ∧
      content ((Files.writeText path text : StateM σ _).run s).2 place = some text.toUTF8 ∧
      ∀ other, other ≠ place →
        content ((Files.writeText path text : StateM σ _).run s).2 other = content s other

namespace FileView
variable {σ : Type} [Files (StateM σ)] (V : FileView σ)

/--
`V.Writes path text s t` : the file that the path leads to holds the text, and no other file is new
or changed.
-/
def Writes (path text : String) (s t : σ) : Prop :=
  ∃ place, V.file? t path = some place ∧ V.content t place = some text.toUTF8 ∧
    ∀ other, other ≠ place → V.content t other = V.content s other

/-- After the action no file is new or changed, whatever becomes of it. -/
def Keeps {α : Type} (act : StateM σ α) : Prop := ∀ s, V.content (act.run s).2 = V.content s

section Keeps
variable {V} {α β : Type}

theorem keeps_pure (a : α) : V.Keeps (pure a) := fun _ => rfl

theorem Keeps.bind {act : StateM σ α} {next : α → StateM σ β} (h : V.Keeps act)
    (hnext : ∀ a, V.Keeps (next a)) : V.Keeps (act >>= next) :=
  fun s => (hnext (act.run s).1 (act.run s).2).trans (h s)

end Keeps

theorem unlessDir_keeps (path : String) (e : FileError) :
    V.Keeps (Files.unlessDir path e : StateM σ _) := by
  refine Keeps.bind (V.isDir_content path) fun there => ?_
  split <;> exact keeps_pure _

theorem makeDirs_keeps (absolute : Bool) (steps : List String) :
    V.Keeps (Files.makeDirs absolute steps : StateM σ _) := by
  induction steps with
  | nil => exact keeps_pure _
  | cons last above ih =>
    refine Keeps.bind (V.makeDir_content _) fun made => ?_
    split
    · exact keeps_pure _
    · -- the directories above were missing: they are made first
      refine ih.bind fun madeAbove => ?_
      split
      · exact keeps_pure _
      · refine Keeps.bind (V.makeDir_content _) fun madeNow => ?_
        split
        · exact keeps_pure _
        · exact V.unlessDir_keeps _ _
    · exact V.unlessDir_keeps _ _

/-- A text is put into its file, or nothing but directories is left of the attempt. -/
theorem put_cases (path text : String) (s : σ) :
    (∃ t, (Files.put path text : StateM σ _).run s = (.ok (), t) ∧ V.Writes path text s t) ∨
      ∃ e t, (Files.put path text : StateM σ _).run s = (.error e, t) ∧
        V.content t = V.content s := by
  have hdirs := V.makeDirs_keeps (FilePath.isAbsolute path) (FilePath.steps path).reverse.tail s
  unfold Files.put
  rw [StateT.run_bind]
  rcases hmade : (Files.makeDirs (FilePath.isAbsolute path) (FilePath.steps path).reverse.tail :
    StateM σ _).run s with ⟨_ | _, s'⟩
  · rw [hmade] at hdirs
    exact .inr ⟨_, _, rfl, hdirs⟩
  · rw [hmade] at hdirs
    have hok := V.writeText_ok path text s'
    have herror := V.writeText_error path text s'
    change (∃ t, (Files.writeText path text : StateM σ _).run s' = (.ok (), t) ∧ _) ∨
      ∃ e t, (Files.writeText path text : StateM σ _).run s' = (.error e, t) ∧ _
    rcases hwritten : (Files.writeText path text : StateM σ _).run s' with ⟨e | _, t⟩
    · rw [hwritten] at herror
      exact .inr ⟨e, t, rfl, (herror e rfl).trans hdirs⟩
    · rw [hwritten] at hok
      obtain ⟨place, hplace, hcontent, hother⟩ := hok rfl
      refine .inl ⟨t, rfl, place, hplace, hcontent, fun other hne => ?_⟩
      exact (hother other hne).trans (congrFun hdirs other)

end FileView

/-- The text at a path, as it is read in a state. -/
def Files.textAt {σ : Type} [Files (StateM σ)] (s : σ) (path : String) : Except FileError String :=
  ((Files.readText path : StateM σ _).run s).1

/-- A file that holds a text is read as that text. -/
theorem Files.textAt_of_readBytes {σ : Type} [Files (StateM σ)] {path text : String} {s : σ}
    (h : ((Files.readBytes path : StateM σ _).run s).1 = .ok text.toUTF8) :
    Files.textAt s path = .ok text := by
  have hvalid : text.toUTF8.IsValidUTF8 := text.isValidUTF8
  have htext : String.fromUTF8? text.toUTF8 = some text := by
    unfold String.fromUTF8?
    rw [dif_pos hvalid]
    rfl
  unfold Files.textAt Files.readText
  rw [StateT.run_bind]
  rcases hread : (Files.readBytes path : StateM σ _).run s with ⟨x, t⟩
  rw [hread] at h
  obtain rfl : x = .ok text.toUTF8 := h
  change (String.fromUTF8? text.toUTF8).elim (Except.error FileError.notText) Except.ok = _
  rw [htext]
  rfl

namespace FileView
variable {σ : Type} [Files (StateM σ)]

theorem readText_run (V : FileView σ) (path : String) (s : σ) :
    (Files.readText path : StateM σ _).run s = (Files.textAt s path, s) := by
  refine Prod.ext rfl ?_
  have hread := V.readBytes_snd path s
  unfold Files.readText
  rw [StateT.run_bind]
  rcases hbytes : (Files.readBytes path : StateM σ _).run s with ⟨_ | _, t⟩ <;>
    rw [hbytes] at hread <;> exact hread

/-- A text that is read is what the file that the path leads to holds. -/
theorem content_of_textAt (V : FileView σ) {path text : String} {s : σ}
    (h : Files.textAt s path = .ok text) :
    ∃ place, V.file? s path = some place ∧ V.content s place = some text.toUTF8 := by
  have hcontent := V.readBytes_fst path s
  unfold Files.textAt Files.readText at h
  rw [StateT.run_bind] at h
  rcases hread : (Files.readBytes path : StateM σ _).run s with ⟨e | bytes, t⟩
  · rw [hread] at h
    cases h
  · rw [hread] at h hcontent
    obtain ⟨place, hplace, hbytes⟩ := hcontent bytes rfl
    refine ⟨place, hplace, hbytes.trans (congrArg some ?_)⟩
    change (String.fromUTF8? bytes).elim (Except.error FileError.notText) Except.ok = .ok text at h
    unfold String.fromUTF8? at h
    split at h
    · next hvalid =>
      obtain rfl := Except.ok.inj h
      rfl
    · cases h

end FileView

/-! ## Files as data -/

theorem except_bind_eq_ok {ε α β : Type} {x : Except ε α} {f : α → Except ε β} {b : β}
    (h : (x >>= f) = .ok b) : ∃ a, x = .ok a ∧ f a = .ok b := by
  cases x with
  | error e => cases h
  | ok a => exact ⟨a, rfl, h⟩

/-- What is held, if it is held by a file. -/
def FileItem.bytes? : FileItem → Option ByteArray
  | file bytes => some bytes
  | directory => none

namespace FileTree

section Items
variable {items : List (List String × FileItem)} {place q : List String} {item : FileItem}

theorem lookup_replaced (h : (items.lookup place).isSome = true) :
    (items.map fun e => if e.1 = place then (place, item) else e).lookup place = some item := by
  induction items with
  | nil => cases h
  | cons e items ih =>
    rw [List.map_cons, List.lookup_cons]
    by_cases hp : e.1 = place
    · simp [hp]
    · have hbeq : (place == e.1) = false := beq_false_of_ne (Ne.symm hp)
      rw [List.lookup_cons, hbeq] at h
      rw [if_neg hp, hbeq]
      exact ih h

theorem lookup_replaced_of_ne (hq : q ≠ place) :
    (items.map fun e => if e.1 = place then (place, item) else e).lookup q = items.lookup q := by
  induction items with
  | nil => rfl
  | cons e items ih =>
    rw [List.map_cons, List.lookup_cons, List.lookup_cons, ih]
    by_cases hp : e.1 = place
    · have hbeq : (q == place) = false := beq_false_of_ne hq
      rw [if_pos hp, hp, hbeq]
    · rw [if_neg hp]

end Items

theorem lookup_set (t : FileTree) (place q : List String) (item : FileItem) :
    (t.set place item).items.lookup q = if q = place then some item else t.items.lookup q := by
  unfold set
  by_cases hq : q = place
  · subst hq
    rw [if_pos rfl]
    split
    · next h => exact lookup_replaced h
    · next h =>
      rw [Option.not_isSome_iff_eq_none] at h
      simp [List.lookup_append, h]
  · rw [if_neg hq]
    split
    · exact lookup_replaced_of_ne hq
    · have hbeq : (q == place) = false := beq_false_of_ne hq
      simp [List.lookup_append, List.lookup_cons, hbeq]

/-- A place that was set holds what it was set to, and all others what they held. -/
theorem item?_set {t : FileTree} {place : List String} (hplace : isStart place = false)
    (q : List String) (item : FileItem) :
    (t.set place item).item? q = if q = place then some item else t.item? q := by
  unfold item?
  rw [lookup_set]
  by_cases hq : q = place
  · subst hq
    simp [hplace]
  · simp [hq]

/-- One step of a walk down leads to a directory. -/
theorem walk_down_iff {t : FileTree} {here d : List String} {part : String} {rest : List String}
    (hdot : part ≠ ".") (hdots : part ≠ "..") :
    t.walk here (part :: rest) = .ok d ↔
      ∃ q, below here part = .ok q ∧ t.item? q = some .directory ∧ t.walk q rest = .ok d := by
  rw [walk, if_neg hdot, if_neg hdots]
  constructor
  · intro h
    obtain ⟨q, hq, h⟩ := except_bind_eq_ok h
    split at h
    · cases h
    · cases h
    · next hitem => exact ⟨q, hq, hitem, h⟩
  · rintro ⟨q, hq, hitem, h⟩
    rw [hq]
    dsimp only [bind, Except.bind]
    rw [hitem]
    exact h

/-- A walk does not come by a file, so it is the same walk when a file is written. -/
theorem walk_set {t : FileTree} {place : List String} (hplace : isStart place = false)
    (hno : t.item? place ≠ some .directory) (item : FileItem) {here d parts : List String}
    (h : t.walk here parts = .ok d) : (t.set place item).walk here parts = .ok d := by
  induction parts generalizing here with
  | nil => exact h
  | cons part rest ih =>
    by_cases hdot : part = "."
    · rw [walk, if_pos hdot] at h ⊢
      exact ih h
    · by_cases hdots : part = ".."
      · rw [walk, if_neg hdot, if_pos hdots] at h ⊢
        exact ih h
      · obtain ⟨q, hq, hitem, hrest⟩ := (walk_down_iff hdot hdots).1 h
        have hne : q ≠ place := by
          rintro rfl
          exact hno hitem
        refine (walk_down_iff hdot hdots).2 ⟨q, hq, ?_, ih hrest⟩
        rw [item?_set hplace, if_neg hne]
        exact hitem

/-- Only such paths lead anywhere. -/
def Admissible (path : String) : Prop :=
  '\x00' ∉ path.toList ∧ path.isEmpty = false ∧ path.utf8ByteSize ≤ longestPath

theorem admissible_of_place {t : FileTree} {path : String} {p : Place} (h : t.place path = .ok p) :
    Admissible path := by
  unfold FileTree.place at h
  by_cases hzero : '\x00' ∈ path.toList
  · rw [if_pos hzero] at h
    cases h
  by_cases hempty : path.isEmpty = true
  · rw [if_neg hzero, if_pos hempty] at h
    cases h
  by_cases hlong : path.utf8ByteSize > longestPath
  · rw [if_neg hzero, if_neg hempty, if_pos hlong] at h
    cases h
  exact ⟨hzero, by simpa using hempty, by omega⟩

/-- A path leads to a name if its other parts lead to a directory. -/
theorem place_eq_name_iff {t : FileTree} {path last : String} {dir : List String} :
    t.place path = .ok (.name dir last) ↔
      Admissible path ∧ (FilePath.parts path).getLast? = some last ∧ ¬ (last = "." ∨ last = "..") ∧
      t.walk (if FilePath.isAbsolute path then [root] else []) (FilePath.parts path).dropLast =
        .ok dir := by
  by_cases hpath : Admissible path
  swap
  · exact iff_of_false (fun h => hpath (admissible_of_place h)) (fun h => hpath h.1)
  have ⟨hzero, hempty, hlong⟩ := hpath
  unfold FileTree.place
  rw [if_neg hzero, if_neg (by simp [hempty]), if_neg (by omega)]
  dsimp only
  generalize (if FilePath.isAbsolute path then [root] else []) = start
  cases (FilePath.parts path).getLast? with
  | none => exact iff_of_false nofun (fun h => nomatch h.2.1)
  | some l =>
    dsimp only
    by_cases hdots : l = "." ∨ l = ".."
    · rw [if_pos hdots]
      refine iff_of_false (fun h => ?_) (fun h => h.2.2.1 (Option.some.inj h.2.1 ▸ hdots))
      cases hwalk : t.walk start (FilePath.parts path) <;> rw [hwalk] at h <;> cases h
    · rw [if_neg hdots]
      cases t.walk start (FilePath.parts path).dropLast with
      | error e => exact iff_of_false nofun (fun h => nomatch h.2.2.2)
      | ok d =>
        constructor
        · intro h
          obtain ⟨rfl, rfl⟩ := Place.name.inj (Except.ok.inj h)
          exact ⟨hpath, rfl, hdots, rfl⟩
        · rintro ⟨-, hl, -, hd⟩
          obtain rfl := Option.some.inj hl
          obtain rfl := Except.ok.inj hd
          rfl

/-- A path leads to the same name in the same directory when a file is written. -/
theorem place_set {t : FileTree} {place : List String} (hplace : isStart place = false)
    (hno : t.item? place ≠ some .directory) (item : FileItem) {path : String} {dir : List String}
    {last : String} (h : t.place path = .ok (.name dir last)) :
    (t.set place item).place path = .ok (.name dir last) := by
  obtain ⟨hpath, hlast, hdots, hwalk⟩ := place_eq_name_iff.1 h
  exact place_eq_name_iff.2 ⟨hpath, hlast, hdots, walk_set hplace hno item hwalk⟩

/-! ## What is read, written and made -/

/-- What a file at a place holds. -/
def content (t : FileTree) (place : List String) : Option ByteArray :=
  (t.item? place).bind FileItem.bytes?

theorem content_set {t : FileTree} {place : List String} (hplace : isStart place = false)
    (q : List String) (item : FileItem) :
    (t.set place item).content q = if q = place then item.bytes? else t.content q := by
  unfold content
  rw [item?_set hplace]
  split <;> rfl

/-- The place of the file that a path leads to. -/
def file? (t : FileTree) (path : String) : Option (List String) :=
  match t.place path with
  | .ok (.name dir last) => some (dir ++ [last])
  | _ => none

theorem below_eq_ok {here q : List String} {part : String} (h : below here part = .ok q) :
    q = here ++ [part] := by
  unfold below at h
  split at h
  · cases h
  · exact (Except.ok.inj h).symm

theorem isStart_of_not_directory {t : FileTree} {place : List String}
    (h : t.item? place ≠ some .directory) : isStart place = false := by
  unfold item? at h
  split at h
  · exact absurd rfl h
  · next hno => simpa using hno

theorem read_eq_ok {t : FileTree} {path : String} {bytes : ByteArray}
    (h : t.read path = .ok bytes) :
    ∃ dir last, t.place path = .ok (.name dir last) ∧
      t.item? (dir ++ [last]) = some (.file bytes) := by
  unfold FileTree.read at h
  obtain ⟨p, hplace, h⟩ := except_bind_eq_ok h
  cases p with
  | directory here => cases h
  | name dir last =>
    obtain ⟨q, hbelow, h⟩ := except_bind_eq_ok h
    obtain rfl := below_eq_ok hbelow
    refine ⟨dir, last, hplace, ?_⟩
    split at h
    · cases h
    · cases h
    · next held hitem =>
      split at h
      · cases h
      · obtain rfl := Except.ok.inj h
        exact hitem

theorem write_eq_ok {t u : FileTree} {path text : String} (h : t.write path text = .ok u) :
    ∃ dir last, t.place path = .ok (.name dir last) ∧
      t.item? (dir ++ [last]) ≠ some .directory ∧
      u = t.set (dir ++ [last]) (.file text.toUTF8) := by
  unfold FileTree.write at h
  obtain ⟨p, hplace, h⟩ := except_bind_eq_ok h
  cases p with
  | directory here => cases h
  | name dir last =>
    dsimp only at h
    split at h
    · cases h
    obtain ⟨q, hbelow, h⟩ := except_bind_eq_ok h
    obtain rfl := below_eq_ok hbelow
    refine ⟨dir, last, hplace, ?_⟩
    split at h
    · cases h
    · next hno => exact ⟨hno, (Except.ok.inj h).symm⟩

theorem makeDir_eq_ok {t u : FileTree} {path : String} (h : t.makeDir path = .ok u) :
    ∃ place, t.item? place = none ∧ u = t.set place .directory := by
  unfold FileTree.makeDir at h
  obtain ⟨p, -, h⟩ := except_bind_eq_ok h
  cases p with
  | directory here => cases h
  | name dir last =>
    obtain ⟨q, -, h⟩ := except_bind_eq_ok h
    split at h
    · cases h
    · next hnone => exact ⟨q, hnone, (Except.ok.inj h).symm⟩

theorem content_makeDir {t u : FileTree} {path : String} (h : t.makeDir path = .ok u) :
    u.content = t.content := by
  obtain ⟨place, hnone, rfl⟩ := makeDir_eq_ok h
  have hno : t.item? place ≠ some .directory := by
    rw [hnone]
    exact nofun
  have hplace : isStart place = false := isStart_of_not_directory hno
  funext q
  rw [content_set hplace]
  by_cases hq : q = place
  · rw [if_pos hq, hq, content, hnone]
    rfl
  · rw [if_neg hq]

theorem write_content {t u : FileTree} {path text : String} (h : t.write path text = .ok u) :
    ∃ place, u.file? path = some place ∧ u.content place = some text.toUTF8 ∧
      ∀ other, other ≠ place → u.content other = t.content other := by
  obtain ⟨dir, last, hplace, hno, rfl⟩ := write_eq_ok h
  have hstart := isStart_of_not_directory hno
  refine ⟨dir ++ [last], ?_, ?_, fun other hne => ?_⟩
  · unfold file?
    rw [place_set hstart hno _ hplace]
  · rw [content_set hstart, if_pos rfl]
    rfl
  · rw [content_set hstart, if_neg hne]

/-- The tree changes only by what was written or made in it. -/
theorem commit_run (next : Except FileError FileTree) (t : FileTree) :
    (commit next).run t = match next with
      | .ok u => (.ok (), u)
      | .error e => (.error e, t) := by
  cases next <;> rfl

/-- Files as data, seen as files with their contents. -/
def view : FileView FileTree where
  Place := List String
  content := content
  file? := file?
  readBytes_snd _ _ := rfl
  readBytes_fst path t bytes h := by
    have hread : t.read path = .ok bytes := h
    obtain ⟨dir, last, hplace, hitem⟩ := read_eq_ok hread
    refine ⟨dir ++ [last], ?_, ?_⟩
    · unfold file?
      rw [hplace]
    · rw [content, hitem]
      rfl
  isDir_content _ _ := rfl
  makeDir_content path t := by
    change content ((commit (t.makeDir path)).run t).2 = _
    rw [commit_run]
    cases hmade : t.makeDir path with
    | error e => rfl
    | ok u => exact content_makeDir hmade
  writeText_error path text t e := by
    change ((commit (t.write path text)).run t).1 = .error e →
      content ((commit (t.write path text)).run t).2 = _
    rw [commit_run]
    cases t.write path text with
    | error e => exact fun _ => rfl
    | ok u => exact fun h => nomatch h
  writeText_ok path text t := by
    change ((commit (t.write path text)).run t).1 = .ok () →
      ∃ place, file? ((commit (t.write path text)).run t).2 path = some place ∧
        content ((commit (t.write path text)).run t).2 place = some text.toUTF8 ∧
        ∀ other, other ≠ place →
          content ((commit (t.write path text)).run t).2 other = content t other
    rw [commit_run]
    cases hwritten : t.write path text with
    | error e => exact fun h => nomatch h
    | ok u => exact fun _ => write_content hwritten

end FileTree
end NetGraph
