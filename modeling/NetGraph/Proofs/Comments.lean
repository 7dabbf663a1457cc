import NetGraph.Yaml.Chars

/-!
# Lines of comments

* `lines` : the lines of a text, at each of the five breaks of YAML, where CR LF is one break;
* `lines_append` : a text that starts with no break is appended within a line, so that only the
  lines at the seam are joined;
* `StaysComment` : a text that may stand within a comment, since each line that it begins is one;
* `Woven` : harmless text around quoted texts. It is a comment line iff the quoted texts stay
  comments (`Woven.staysComment_iff`);
* `IsPreamble` : lines of comments, of which the last may be the mark `---` instead.
-/

namespace NetGraph.Yaml

/-! ## Lines -/

/-- The lines of a text that stands right after a CR, or not. -/
def linesAfter (cr : Bool) : List Char → List (List Char)
  | [] => [[]]
  | c :: rest =>
    if cr && c == '\n' then linesAfter false rest
    else if isBreak c then [] :: linesAfter (c == '\r') rest
    else (linesAfter false rest).modifyHead (c :: ·)

/-- The lines of a text; what stands after the last break is a line too, even if it is empty. -/
def lines (cs : List Char) : List (List Char) := linesAfter false cs

theorem linesAfter_of_not_isBreak {c : Char} (h : isBreak c = false) (cr : Bool) (cs : List Char) :
    linesAfter cr (c :: cs) = (lines cs).modifyHead (c :: ·) := by
  have hlf : (c == '\n') = false := by
    rw [← Bool.not_eq_true, beq_iff_eq]
    rintro rfl
    exact absurd h (by decide)
  rw [linesAfter, hlf, Bool.and_false, if_neg Bool.false_ne_true, h, if_neg Bool.false_ne_true]
  rfl

theorem lines_of_lineFeed (cs : List Char) : lines ('\n' :: cs) = [] :: lines cs := rfl

theorem linesAfter_ne_nil (cr : Bool) (cs : List Char) : linesAfter cr cs ≠ [] := by
  induction cs generalizing cr with
  | nil => exact List.cons_ne_nil _ _
  | cons c cs ih =>
    rw [linesAfter]
    split
    · exact ih false
    · split
      · exact List.cons_ne_nil _ _
      · simpa [List.modifyHead_eq_nil_iff] using ih false

/-- What is appended without a break at its start goes on in the last line. -/
theorem linesAfter_append {d : Char} (hd : isBreak d = false) (ys xs : List Char) (cr : Bool) :
    ∃ init last, linesAfter cr xs = init ++ [last] ∧
      linesAfter cr (xs ++ d :: ys) = init ++ (lines (d :: ys)).modifyHead (last ++ ·) := by
  induction xs generalizing cr with
  | nil =>
    refine ⟨[], [], rfl, ?_⟩
    have hid : (lines (d :: ys)).modifyHead ([] ++ ·) = lines (d :: ys) := by
      cases lines (d :: ys) <;> rfl
    rw [List.nil_append, List.nil_append, hid, lines, linesAfter_of_not_isBreak hd,
      linesAfter_of_not_isBreak hd]
  | cons c xs ih =>
    rw [List.cons_append, linesAfter, linesAfter]
    split
    · exact ih false
    · split
      · obtain ⟨init, last, h₁, h₂⟩ := ih (c == '\r')
        exact ⟨[] :: init, last, by rw [h₁, List.cons_append], by rw [h₂, List.cons_append]⟩
      · obtain ⟨init, last, h₁, h₂⟩ := ih false
        rw [h₁, h₂]
        cases init with
        | nil =>
          refine ⟨[], c :: last, rfl, ?_⟩
          cases lines (d :: ys) <;> rfl
        | cons l init => exact ⟨(c :: l) :: init, last, rfl, rfl⟩

theorem lines_append {d : Char} (hd : isBreak d = false) (ys xs : List Char) :
    ∃ init last, lines xs = init ++ [last] ∧
      lines (xs ++ d :: ys) = init ++ (lines (d :: ys)).modifyHead (last ++ ·) :=
  linesAfter_append hd ys xs false

/-- A line feed after a line ends it. -/
theorem lines_append_lineFeed {d : Char} (hd : isBreak d = false) (xs ys : List Char) :
    lines (xs ++ [d] ++ '\n' :: ys) = lines (xs ++ [d]) ++ lines ys := by
  obtain ⟨init, last, h, h₁⟩ := lines_append hd [] xs
  obtain ⟨init', last', h', h₂⟩ := lines_append hd ('\n' :: ys) xs
  obtain ⟨rfl, hlast⟩ := List.append_inj' (h.symm.trans h') rfl
  obtain rfl := List.singleton_inj.1 hlast
  have hone : lines [d] = [[d]] := by rw [lines, linesAfter_of_not_isBreak hd]; rfl
  have hline : lines (d :: '\n' :: ys) = [d] :: lines ys := by
    rw [lines, linesAfter_of_not_isBreak hd, lines_of_lineFeed]
    rfl
  rw [List.append_assoc, List.singleton_append, h₂, h₁, hline, hone]
  simp

theorem lines_of_forall_not_isBreak {cs : List Char} (h : ∀ c ∈ cs, isBreak c = false) :
    lines cs = [cs] := by
  induction cs with
  | nil => rfl
  | cons c cs ih =>
    rw [List.forall_mem_cons] at h
    rw [lines, linesAfter_of_not_isBreak h.1, ih h.2]
    rfl

/-! ## Comments -/

/-- A line that is a comment from its first character on. -/
def IsComment (line : List Char) : Prop := line.head? = some '#'

/-- Every line after the first is a comment. -/
def StaysComment (cs : List Char) : Prop := ∀ l ∈ (lines cs).tail, IsComment l

instance (line : List Char) : Decidable (IsComment line) :=
  inferInstanceAs (Decidable (line.head? = some '#'))

instance (cs : List Char) : Decidable (StaysComment cs) :=
  decidable_of_iff ((lines cs).tail.all fun l => decide (IsComment l)) (by simp [StaysComment])

theorem staysComment_of_not_isBreak {pre : List Char} (h : ∀ c ∈ pre, isBreak c = false)
    (cs : List Char) : StaysComment (pre ++ cs) ↔ StaysComment cs := by
  induction pre with
  | nil => rfl
  | cons c pre ih =>
    rw [List.forall_mem_cons] at h
    rw [← ih h.2, List.cons_append, StaysComment, StaysComment, lines,
      linesAfter_of_not_isBreak h.1, List.tail_modifyHead]

/-- A text before one that starts with a character within its line, and no number sign. -/
theorem staysComment_append {d : Char} (hd : isBreak d = false) (hne : d ≠ '#')
    (xs ys : List Char) :
    StaysComment (xs ++ d :: ys) ↔ StaysComment xs ∧ StaysComment (d :: ys) := by
  obtain ⟨init, last, h₁, h₂⟩ := lines_append hd ys xs
  unfold StaysComment
  rw [h₁, h₂, lines, linesAfter_of_not_isBreak hd]
  obtain ⟨l, ls, hys⟩ := List.exists_cons_of_ne_nil (linesAfter_ne_nil false ys)
  rw [← lines] at hys
  rw [hys]
  cases init with
  | nil => simp
  | cons first init =>
    -- the line at the seam starts in `xs`, or else with `d`, which is no number sign
    have hseam : IsComment (last ++ d :: l) ↔ IsComment last := by
      cases last <;> simp [IsComment, hne]
    simp [hseam, or_imp, forall_and, and_assoc]

/-! ## Quoted texts -/

/-- A text of characters that a document may hold. -/
def AllAllowed (cs : List Char) : Prop := ∀ c ∈ cs, isAllowed c = true

/-- Such a text without breaks. -/
def Harmless (cs : List Char) : Prop := ∀ c ∈ cs, isAllowed c = true ∧ isBreak c = false

instance (cs : List Char) : Decidable (AllAllowed cs) :=
  decidable_of_iff (cs.all isAllowed) List.all_eq_true

instance (cs : List Char) : Decidable (Harmless cs) :=
  decidable_of_iff (cs.all fun c => isAllowed c && !isBreak c) (by simp [Harmless])

theorem harmless_append {cs ds : List Char} : Harmless (cs ++ ds) ↔ Harmless cs ∧ Harmless ds :=
  List.forall_mem_append

/-- The visible characters of ASCII are harmless. -/
theorem harmless_of_toNat {cs : List Char} (h : ∀ c ∈ cs, 0x20 ≤ c.toNat ∧ c.toNat ≤ 0x7E) :
    Harmless cs := by
  intro c hc
  obtain ⟨hlow, hhigh⟩ := h c hc
  have hcr : c ≠ '\r' := by
    rintro rfl
    exact absurd hlow (by decide)
  have hlf : c ≠ '\n' := by
    rintro rfl
    exact absurd hlow (by decide)
  constructor
  · simp [isAllowed, hlow, hhigh]
  · simp only [isBreak, Bool.or_eq_false_iff, beq_eq_false_iff_ne]
    refine ⟨⟨⟨⟨hcr, hlf⟩, ?_⟩, ?_⟩, ?_⟩ <;> omega

/-- A text that goes on within the line and is no comment. -/
def GoesOn (cs : List Char) : Prop := ∃ d rest, cs = d :: rest ∧ isBreak d = false ∧ d ≠ '#'

theorem GoesOn.append {cs : List Char} (h : GoesOn cs) (ds : List Char) : GoesOn (cs ++ ds) := by
  obtain ⟨d, rest, rfl, hd, hne⟩ := h
  exact ⟨d, rest ++ ds, rfl, hd, hne⟩

/-- Harmless text with quoted texts in it, each of which is followed by text that goes on. -/
inductive Woven : List (List Char) → List Char → Prop where
  | nil : Woven [] []
  | text {pre cs : List Char} {qs : List (List Char)} :
      Harmless pre → Woven qs cs → Woven qs (pre ++ cs)
  | quote {q cs : List Char} {qs : List (List Char)} :
      GoesOn cs → Woven qs cs → Woven (q :: qs) (q ++ cs)

theorem Woven.ofHarmless {cs : List Char} (h : Harmless cs) : Woven [] cs := by
  have := Woven.text h .nil
  rwa [List.append_nil] at this

theorem Woven.staysComment_iff {qs : List (List Char)} {cs : List Char} (h : Woven qs cs) :
    StaysComment cs ↔ ∀ q ∈ qs, StaysComment q := by
  induction h with
  | nil => simp [StaysComment, lines, linesAfter]
  | text hpre _ ih => rw [staysComment_of_not_isBreak fun c hc => (hpre c hc).2, ih]
  | quote hon _ ih =>
    obtain ⟨d, rest, rfl, hd, hne⟩ := hon
    rw [staysComment_append hd hne, ih, List.forall_mem_cons]

theorem Woven.allAllowed {qs : List (List Char)} {cs : List Char} (h : Woven qs cs)
    (hqs : ∀ q ∈ qs, AllAllowed q) : AllAllowed cs := by
  induction h with
  | nil => exact List.forall_mem_nil _
  | text hpre _ ih => exact List.forall_mem_append.2 ⟨fun c hc => (hpre c hc).1, ih hqs⟩
  | quote _ _ ih =>
    rw [List.forall_mem_cons] at hqs
    exact List.forall_mem_append.2 ⟨hqs.1, ih hqs.2⟩

theorem Woven.exists_concat {qs : List (List Char)} {cs : List Char} (h : Woven qs cs)
    (hne : cs ≠ []) : ∃ init d, cs = init ++ [d] ∧ isBreak d = false := by
  induction h with
  | nil => exact absurd rfl hne
  | @text pre cs _ hpre _ ih =>
    by_cases hcs : cs = []
    · rw [hcs, List.append_nil] at hne ⊢
      exact ⟨_, _, (List.dropLast_concat_getLast hne).symm, (hpre _ (List.getLast_mem hne)).2⟩
    · obtain ⟨init, d, heq, hd⟩ := ih hcs
      exact ⟨pre ++ init, d, by rw [heq, List.append_assoc], hd⟩
  | @quote q cs _ hon _ ih =>
    obtain ⟨d, rest, rfl, -, -⟩ := hon
    obtain ⟨init, d, heq, hd⟩ := ih (List.cons_ne_nil _ _)
    exact ⟨q ++ init, d, by rw [heq, List.append_assoc], hd⟩

/-! ## Comments above a document -/

/-- The mark that starts a document. -/
def documentMark : List Char := ['-', '-', '-']

/--
Lines that stand above a document: comments, each ended by a break, where the last one may be the
mark of the document instead.
-/
def IsPreamble (cs : List Char) : Prop :=
  ∃ ls last, lines cs = ls ++ [last, []] ∧ (∀ l ∈ ls, IsComment l) ∧
    (IsComment last ∨ last = documentMark)

/-- A line of woven text is a comment throughout iff its quoted texts stay comments. -/
theorem Woven.forall_isComment_iff {qs : List (List Char)} {cs : List Char}
    (h : Woven qs ('#' :: cs)) :
    (∀ l ∈ lines ('#' :: cs), IsComment l) ↔ ∀ q ∈ qs, StaysComment q := by
  rw [← h.staysComment_iff, StaysComment, lines, linesAfter_of_not_isBreak (by decide)]
  cases lines cs <;> simp [IsComment]

theorem lines_flatMap_lineFeed {ws : List (List Char)}
    (hws : ∀ w ∈ ws, ∃ init d, w = init ++ [d] ∧ isBreak d = false) (rest : List Char) :
    lines (ws.flatMap (· ++ ['\n']) ++ rest) = ws.flatMap lines ++ lines rest := by
  induction ws with
  | nil => rfl
  | cons w ws ih =>
    rw [List.forall_mem_cons] at hws
    obtain ⟨⟨init, d, rfl, hd⟩, hws⟩ := hws
    have hfirst : ((init ++ [d]) :: ws).flatMap (· ++ ['\n']) ++ rest =
        init ++ [d] ++ '\n' :: (ws.flatMap (· ++ ['\n']) ++ rest) := by simp
    rw [hfirst, lines_append_lineFeed hd, ih hws, List.flatMap_cons, List.append_assoc]

/-- Comment lines that quote texts, and one line more. -/
theorem isPreamble_iff {ws : List (List Char)} {final : List Char}
    (hws : ∀ w ∈ ws, ∃ init d, w = init ++ [d] ∧ isBreak d = false) (hfinal : Harmless final)
    (hne : final ≠ []) (hlast : IsComment final ∨ final = documentMark) :
    IsPreamble (ws.flatMap (· ++ ['\n']) ++ (final ++ ['\n'])) ↔
      ∀ w ∈ ws, ∀ l ∈ lines w, IsComment l := by
  have hend : lines (final ++ ['\n']) = [final, []] := by
    obtain ⟨init, d, heq, hd⟩ := (Woven.ofHarmless hfinal).exists_concat hne
    rw [heq, lines_append_lineFeed hd, ← heq,
      lines_of_forall_not_isBreak fun c hc => (hfinal c hc).2]
    rfl
  unfold IsPreamble
  rw [lines_flatMap_lineFeed hws, hend]
  constructor
  · rintro ⟨ls, last, heq, hcomments, -⟩ w hw l hl
    obtain ⟨rfl, -⟩ := List.append_inj' heq rfl
    exact hcomments l (List.mem_flatMap.2 ⟨w, hw, hl⟩)
  · intro h
    refine ⟨_, final, rfl, ?_, hlast⟩
    intro l hl
    obtain ⟨w, hw, hl⟩ := List.mem_flatMap.1 hl
    exact h w hw l hl

theorem allAllowed_lines {ws : List (List Char)} {final : List Char}
    (hws : ∀ w ∈ ws, AllAllowed w) (hfinal : Harmless final) :
    AllAllowed (ws.flatMap (· ++ ['\n']) ++ (final ++ ['\n'])) := by
  have hlf : AllAllowed ['\n'] := by decide
  refine List.forall_mem_append.2 ⟨fun c hc => ?_, List.forall_mem_append.2 ⟨?_, hlf⟩⟩
  · obtain ⟨w, hw, hc⟩ := List.mem_flatMap.1 hc
    exact List.forall_mem_append.2 ⟨hws w hw, hlf⟩ c hc
  · exact fun c hc => (hfinal c hc).1

end NetGraph.Yaml
