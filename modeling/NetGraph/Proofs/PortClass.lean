import NetGraph.Proofs.Port

/-!
# The classes of port texts

* `IsNumeral` : the texts of digits that a number has, with any number of zeros in front;
* `decimal_eq_some_iff` : these are the texts of digits, and their values;
* `IsReading.classify_eq` : each text is in one class only;
* `classify_spec` : so each class is exactly the texts that it says.
-/

namespace NetGraph

/-! ## Numerals -/

/-- The digits of `n`, after any number of zeros. -/
def IsNumeral (cs : List Char) (n : Nat) : Prop :=
  ∃ zeros, cs = List.replicate zeros '0' ++ Nat.toDigits 10 n

theorem digitChar_of_isDigit {c : Char} (hc : c.isDigit = true) :
    Nat.digitChar (c.toNat - '0'.toNat) = c := by
  obtain ⟨hlo, hhi⟩ := isDigit_iff.1 hc
  change Nat.digitChar (c.toNat - 48) = c
  rw [← Char.toNat_inj, Nat.toNat_digitChar_of_lt_ten (by omega)]
  omega

/-- One more digit at the end of a numeral. -/
theorem IsNumeral.concat {cs : List Char} {n d : Nat} (h : IsNumeral cs n) (hd : d < 10) :
    IsNumeral (cs ++ [Nat.digitChar d]) (10 * n + d) := by
  obtain ⟨zeros, rfl⟩ := h
  have hlast : [Nat.digitChar d] = Nat.toDigits 10 d := (Nat.toDigits_of_lt_base hd).symm
  rcases Nat.eq_zero_or_pos n with rfl | hn
  · -- the digit of zero is one more zero in front
    refine ⟨zeros + 1, ?_⟩
    rw [hlast, Nat.toDigits_zero, List.replicate_succ', Nat.mul_zero, Nat.zero_add]
  · refine ⟨zeros, ?_⟩
    rw [List.append_assoc, hlast, Nat.toDigits_append_toDigits (by decide) hn hd]

theorem isNumeral_ofDigitChars {cs : List Char} (hne : cs ≠ [])
    (hcs : ∀ c ∈ cs, c.isDigit = true) : IsNumeral cs (Nat.ofDigitChars 10 cs 0) := by
  induction cs using List.reverseRecOn with
  | nil => exact absurd rfl hne
  | append_singleton cs c ih =>
    have hc := hcs c (by simp)
    have hlt := digit_lt_ten hc
    rw [Nat.ofDigitChars_append, Nat.ofDigitChars_cons, Nat.ofDigitChars_nil]
    nth_rewrite 1 [← digitChar_of_isDigit hc]
    by_cases hnil : cs = []
    · subst hnil
      refine ⟨0, ?_⟩
      rw [Nat.ofDigitChars_nil, Nat.mul_zero, Nat.zero_add, Nat.toDigits_of_lt_base hlt]
      rfl
    · exact (ih hnil fun x hx => hcs x (by simp [hx])).concat hlt

theorem IsNumeral.isDigit {cs : List Char} {n : Nat} (h : IsNumeral cs n) :
    ∀ c ∈ cs, c.isDigit = true := by
  obtain ⟨zeros, rfl⟩ := h
  intro c hc
  rcases List.mem_append.1 hc with hc | hc
  · rw [List.eq_of_mem_replicate hc]
    decide
  · exact Nat.isDigit_of_mem_toDigits (by decide) (by decide) hc

theorem decimal_eq_some_iff {cs : List Char} {n : Nat} :
    decimal? cs = some n ↔ IsNumeral cs n := by
  rw [decimal_eq_ofDigitChars]
  constructor
  · rintro ⟨hne, hcs, rfl⟩
    exact isNumeral_ofDigitChars hne hcs
  · intro h
    refine ⟨?_, h.isDigit, ?_⟩
    · obtain ⟨zeros, rfl⟩ := h
      simp [Nat.toDigits_ne_nil]
    · obtain ⟨zeros, rfl⟩ := h
      rw [Nat.ofDigitChars_append, Nat.ofDigitChars_replicate_zero, Nat.mul_zero,
        Nat.ofDigitChars_ten_toDigits]

/-! ## Classes -/

namespace PortSyntax

theorem ofBounds_eq_rangeOutOfBounds {m n : Nat}
    (h : ¬ ((1 ≤ m ∧ m ≤ 65535) ∧ 1 ≤ n ∧ n ≤ 65535)) :
    ofBounds (portNumber? m) (portNumber? n) = .rangeOutOfBounds := by
  rcases not_and_or.1 h with hm | hn
  · rw [portNumber_eq_none_iff.2 hm]
    rfl
  · rw [portNumber_eq_none_iff.2 hn]
    cases portNumber? m <;> rfl

theorem classify_of_word {v : String} (h : IsWord v) :
    classify v = if DnsLabel.accepts v then .named else .invalid := by
  have hrange : range? v.toList = none := by
    cases hr : range? v.toList with
    | none => rfl
    | some r =>
      obtain ⟨a, b, m, n, hv, ha, hb, -⟩ := decimal_of_range hr
      exact absurd ⟨a, b, hv, ha, hb⟩ (h.not_range m n)
  have hdigits : isDigits v.toList = false := by rw [isDigits_eq_isSome, h.not_decimal]; rfl
  unfold classify
  simp only [h.not_blank, h.not_any, hdigits, hrange, Bool.false_eq_true, if_false]

/-- A text has no other reading than its own. -/
theorem IsReading.classify_eq {v : String} {s : PortSyntax} (h : IsReading v s) :
    classify v = s := by
  cases h with
  | empty hblank =>
    unfold classify
    rw [if_pos hblank]
  | any hany => exact classify_of_any hany
  | number hdec hlo =>
    rw [classify_of_decimal hdec, portNumber_eq_some_iff.2 ⟨rfl, hlo⟩]
    rfl
  | numberOutOfRange hdec hno =>
    rw [classify_of_decimal hdec, portNumber_eq_none_iff.2 hno]
    rfl
  | range hrange hfirst hlast =>
    obtain ⟨a, b, hv, ha, hb⟩ := hrange
    rw [classify_of_range hv ha hb, portNumber_eq_some_iff.2 ⟨rfl, hfirst⟩,
      portNumber_eq_some_iff.2 ⟨rfl, hlast⟩]
    rfl
  | @rangeOutOfBounds m n hrange hno =>
    obtain ⟨a, b, hv, ha, hb⟩ := hrange
    rw [classify_of_range hv ha hb, ofBounds_eq_rangeOutOfBounds hno]
  | named hword hname => rw [classify_of_word hword, if_pos (DnsLabel.accepts_iff.2 hname)]
  | invalid hword hno =>
    rw [classify_of_word hword, if_neg fun hacc => hno (DnsLabel.accepts_iff.1 hacc)]

/--
A text is read as what its class says, and its class is the only one that holds it. The value of a
text of digits is the number whose digits they are, however many zeros stand in front.
-/
theorem classify_spec (v : String) :
    (∀ s, classify v = s ↔ IsReading v s) ∧ ∀ cs n, decimal? cs = some n ↔ IsNumeral cs n :=
  ⟨fun _ => ⟨fun h => h ▸ classify_isReading v, IsReading.classify_eq⟩,
    fun _ _ => decimal_eq_some_iff⟩

end PortSyntax
end NetGraph
