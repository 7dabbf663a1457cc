import NetGraph.Identifier
import Mathlib

/-!
# The checks of identifiers against their grammars

* `framed_iff` : `tip(inner*tip)?` by its first character, its last one and all of them;
* `utf8ByteSize_eq_length` : a text of characters up to `U+007F` has as many bytes as characters, so
  that a limit on bytes is one on characters;
* `DnsLabel.accepts_iff`, `LabelPart.accepts_iff` : each check accepts the words of its grammar that
  are no longer than the limit, and no others.
-/

namespace NetGraph

/-! ## Framed words -/

theorem framed_iff {tip inner : Char → Bool} (hti : ∀ c, tip c = true → inner c = true)
    {cs : List Char} :
    Framed tip inner cs ↔
      cs.head?.any tip = true ∧ cs.getLast?.any tip = true ∧ ∀ c ∈ cs, inner c = true := by
  constructor
  · rintro (h | ⟨ha, hm, hb⟩)
    · simp [h, hti _ h]
    · refine ⟨by simpa using ha, ?_, ?_⟩
      · rw [← List.cons_append, List.getLast?_concat]
        simpa using hb
      · intro c hc
        rcases List.mem_cons.1 hc with rfl | hc
        · exact hti _ ha
        · rcases List.mem_append.1 hc with hc | hc
          · exact hm c hc
          · exact hti c (List.mem_singleton.1 hc ▸ hb)
  · rintro ⟨ha, hb, hall⟩
    cases cs with
    | nil => simp at ha
    | cons a rest =>
      rw [List.head?_cons, Option.any_some] at ha
      obtain rfl | ⟨m, b, rfl⟩ := List.eq_nil_or_concat' rest
      · exact .single ha
      · rw [← List.cons_append, List.getLast?_concat, Option.any_some] at hb
        exact .wide ha (fun c hc => hall c (by simp [hc])) hb

/-! ## Bytes and characters -/

theorem utf8ByteSize_ofList_eq_length {cs : List Char} (h : ∀ c ∈ cs, c.utf8Size = 1) :
    (String.ofList cs).utf8ByteSize = cs.length := by
  induction cs with
  | nil => simp
  | cons c rest ih =>
    rw [String.ofList_cons, String.utf8ByteSize_append, String.utf8ByteSize_singleton,
      h c List.mem_cons_self, ih fun x hx => h x (List.mem_cons_of_mem c hx), List.length_cons,
      Nat.add_comm]

theorem utf8ByteSize_eq_length {v : String} (h : ∀ c ∈ v.toList, c.utf8Size = 1) :
    v.utf8ByteSize = v.length := by
  have hv := utf8ByteSize_ofList_eq_length h
  rwa [String.ofList_toList, String.length_toList] at hv

/-! ## Letters and digits -/

theorem isDigit_iff {c : Char} : c.isDigit = true ↔ 48 ≤ c.toNat ∧ c.toNat ≤ 57 :=
  Char.isDigit_iff_toNat

theorem isAlpha_iff {c : Char} :
    c.isAlpha = true ↔ (65 ≤ c.toNat ∧ c.toNat ≤ 90) ∨ (97 ≤ c.toNat ∧ c.toNat ≤ 122) := by
  simp [Char.isAlpha, Char.isUpper, Char.isLower, UInt32.le_iff_toNat_le]

theorem isSpace_of_isAlphanum {c : Char} (h : c.isAlphanum = true) : Text.isSpace c = false := by
  rw [Char.isAlphanum, Bool.or_eq_true, isAlpha_iff, isDigit_iff] at h
  simp [Text.isSpace]
  omega

theorem not_isDigit_of_isAlpha {c : Char} (h : c.isAlpha = true) : c.isDigit = false := by
  rw [isAlpha_iff] at h
  rw [← Bool.not_eq_true, isDigit_iff]
  omega

/-! ## Checks -/

/-- A check that refuses where `p` holds, and else goes on. -/
theorem isOk_guard {ε α : Type} {p : Prop} [Decidable p] {e : ε} {r : Except ε α} :
    (if p then throw e else r : Except ε α).isOk = true ↔ ¬ p ∧ r.isOk = true := by
  split
  · next h => exact ⟨fun h' => absurd h' Bool.false_ne_true, fun h' => absurd h h'.1⟩
  · next h => exact ⟨fun h' => ⟨h, h'⟩, And.right⟩

theorem exists_error_iff {ε α : Type} {r : Except ε α} :
    (∃ e, r = .error e) ↔ ¬ r.isOk = true := by
  cases r <;> simp [Except.isOk, Except.toBool]

/-! ## DNS labels -/

namespace DnsLabel

theorem isInner_iff {c : Char} :
    isInner c = true ↔
      (97 ≤ c.toNat ∧ c.toNat ≤ 122) ∨ (48 ≤ c.toNat ∧ c.toNat ≤ 57) ∨ c = '-' := by
  simp [isInner, isTip, Char.isLower, Char.isDigit, UInt32.le_iff_toNat_le, or_assoc]

theorem isInner_of_isTip (c : Char) (h : isTip c = true) : isInner c = true := by
  simp [isInner, h]

theorem isTip_iff {c : Char} : isTip c = true ↔ isInner c = true ∧ c ≠ '-' := by
  constructor
  · intro h
    refine ⟨isInner_of_isTip c h, ?_⟩
    rintro rfl
    exact absurd h (by decide)
  · rintro ⟨h, hne⟩
    simpa [isInner, hne] using h

theorem utf8Size_of_isInner {c : Char} (h : isInner c = true) : c.utf8Size = 1 := by
  rw [Char.utf8Size_eq_one_iff, UInt32.le_iff_toNat_le]
  rcases isInner_iff.1 h with h | h | rfl
  · exact Nat.le_trans h.2 (by decide)
  · exact Nat.le_trans h.2 (by decide)
  · decide

theorem isSpace_of_isInner {c : Char} (h : isInner c = true) : Text.isSpace c = false := by
  rcases isInner_iff.1 h with h | h | rfl
  · simp [Text.isSpace]; omega
  · simp [Text.isSpace]; omega
  · decide

/-- The four rules of the check. -/
theorem accepts_iff_rules {v : String} :
    accepts v = true ↔
      Text.isBlank v = false ∧ v.utf8ByteSize ≤ identifierLimit ∧
        (v.toList.head? ≠ some '-' ∧ v.toList.getLast? ≠ some '-') ∧
        ∀ c ∈ v.toList, isInner c = true := by
  unfold accepts check
  rw [isOk_guard, isOk_guard, isOk_guard, isOk_guard]
  simp [Except.isOk, Except.toBool, pure, Except.pure]

theorem ne_empty_of_accepts {v : String} (h : accepts v = true) : v ≠ "" := by
  rintro rfl
  exact absurd h (by decide)

theorem any_isTip_iff {o : Option Char} (h : ∃ c, o = some c ∧ isInner c = true) :
    o.any isTip = true ↔ o ≠ some '-' := by
  obtain ⟨c, rfl, hc⟩ := h
  simp [isTip_iff, hc]

theorem accepts_iff {v : String} : accepts v = true ↔ IsDnsLabel v := by
  rw [accepts_iff_rules, IsDnsLabel, framed_iff isInner_of_isTip]
  constructor
  · rintro ⟨hblank, hlen, ⟨hhead, hlast⟩, hall⟩
    have hne : v.toList ≠ [] := by
      intro h
      simp [Text.isBlank, h] at hblank
    have hfirst := hall _ (List.head_mem hne)
    have hfinal := hall _ (List.getLast_mem hne)
    refine ⟨⟨?_, ?_, hall⟩, ?_⟩
    · exact (any_isTip_iff ⟨_, List.head?_eq_some_head hne, hfirst⟩).2 hhead
    · exact (any_isTip_iff ⟨_, List.getLast?_eq_some_getLast hne, hfinal⟩).2 hlast
    · rwa [utf8ByteSize_eq_length fun c hc => utf8Size_of_isInner (hall c hc)] at hlen
  · rintro ⟨⟨hhead, hlast, hall⟩, hlen⟩
    have hne : v.toList ≠ [] := by
      intro h
      simp [h] at hhead
    have hfirst := hall _ (List.head_mem hne)
    have hfinal := hall _ (List.getLast_mem hne)
    refine ⟨?_, ?_, ⟨?_, ?_⟩, hall⟩
    · rw [Text.isBlank, List.all_eq_false]
      exact ⟨_, List.head_mem hne, by simp [isSpace_of_isInner hfirst]⟩
    · rwa [utf8ByteSize_eq_length fun c hc => utf8Size_of_isInner (hall c hc)]
    · exact (any_isTip_iff ⟨_, List.head?_eq_some_head hne, hfirst⟩).1 hhead
    · exact (any_isTip_iff ⟨_, List.getLast?_eq_some_getLast hne, hfinal⟩).1 hlast

theorem exists_fault_iff {v : String} : (∃ f, check v = .error f) ↔ ¬ IsDnsLabel v := by
  rw [exists_error_iff, ← accepts_iff, accepts]

end DnsLabel

/-! ## Parts of labels -/

namespace LabelPart

theorem isInner_of_isTip (c : Char) (h : isTip c = true) : isInner c = true := by
  rw [isTip] at h
  simp [isInner, h]

theorem utf8Size_of_isInner {c : Char} (h : isInner c = true) : c.utf8Size = 1 := by
  rw [Char.utf8Size_eq_one_iff, UInt32.le_iff_toNat_le]
  simp only [isInner, Char.isAlphanum, Bool.or_eq_true, beq_iff_eq, isAlpha_iff, isDigit_iff] at h
  obtain ((h | rfl) | rfl) | rfl := h
  · change c.toNat ≤ 127
    omega
  all_goals decide

/-- The four rules of the check. -/
theorem accepts_iff_rules {v : String} :
    accepts v = true ↔
      v ≠ "" ∧ v.utf8ByteSize ≤ identifierLimit ∧
        (v.toList.head?.any isTip = true ∧ v.toList.getLast?.any isTip = true) ∧
        ∀ c ∈ v.toList, isInner c = true := by
  unfold accepts check
  rw [isOk_guard, isOk_guard, isOk_guard, isOk_guard]
  simp [Except.isOk, Except.toBool, pure, Except.pure]

theorem accepts_iff {v : String} : accepts v = true ↔ IsLabelPart v := by
  rw [accepts_iff_rules, IsLabelPart, framed_iff isInner_of_isTip]
  constructor
  · rintro ⟨-, hlen, ⟨hhead, hlast⟩, hall⟩
    refine ⟨⟨hhead, hlast, hall⟩, ?_⟩
    rwa [utf8ByteSize_eq_length fun c hc => utf8Size_of_isInner (hall c hc)] at hlen
  · rintro ⟨⟨hhead, hlast, hall⟩, hlen⟩
    refine ⟨?_, ?_, ⟨hhead, hlast⟩, hall⟩
    · rintro rfl
      simp at hhead
    · rwa [utf8ByteSize_eq_length fun c hc => utf8Size_of_isInner (hall c hc)]

/-- A part of a label is not blank. -/
theorem not_isBlank {v : String} (h : IsLabelPart v) : Text.isBlank v = false := by
  obtain ⟨hhead, -, -⟩ := (framed_iff isInner_of_isTip).1 h.1
  obtain ⟨c, hc, htip⟩ := (Option.any_eq_true ..).1 hhead
  rw [Text.isBlank, List.all_eq_false]
  exact ⟨c, List.mem_of_head? hc, by simp [isSpace_of_isAlphanum htip]⟩

end LabelPart
end NetGraph
