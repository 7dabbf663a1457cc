import NetGraph.Proofs.Identifier

/-!
# The grammars of identifiers as regular expressions

* `Grammar.oneOf`, `Grammar.optional`, `Grammar.upTo` : `[..]`, `r?` and `r{0,n}`, with the words
  that they match;
* `DnsLabel.grammar`, `LabelPart.grammar` : `[a-z0-9]([-a-z0-9]*[a-z0-9])?` and
  `[A-Za-z0-9]([A-Za-z0-9_.-]{0,61}[A-Za-z0-9])?`;
* `identifier_checks_match` : the checks, which look for one broken rule after the other, let the
  words of these expressions pass, up to the limit, and no others.
-/

namespace NetGraph

/-! ## Regular expressions over characters -/

namespace Grammar

/-- The characters from `a` to `b`. -/
def span (a b : Char) : List Char := (List.range' a.toNat (b.toNat + 1 - a.toNat)).map Char.ofNat

/-- `[..]`: one of these characters. -/
def oneOf : List Char → RegularExpression Char
  | [] => 0
  | c :: cs => .char c + oneOf cs

/-- `r?` -/
def optional (r : RegularExpression Char) : RegularExpression Char := 1 + r

/-- `r{0,n}` -/
def upTo (n : Nat) (r : RegularExpression Char) : RegularExpression Char := optional r ^ n

/-- There is no gap in the code points before the surrogates. -/
theorem mem_span {a b c : Char} (hb : b.toNat < 0xD800) :
    c ∈ span a b ↔ a.toNat ≤ c.toNat ∧ c.toNat ≤ b.toNat := by
  simp only [span, List.mem_map, List.mem_range'_1]
  constructor
  · rintro ⟨n, ⟨hlo, hhi⟩, rfl⟩
    rw [Char.toNat_ofNat, if_pos (.inl (by omega))]
    omega
  · intro h
    exact ⟨c.toNat, by omega, Char.ofNat_toNat c⟩

theorem mem_oneOf {cs w : List Char} : w ∈ (oneOf cs).matches' ↔ ∃ c ∈ cs, w = [c] := by
  induction cs with
  | nil => simp [oneOf, Language.notMem_zero]
  | cons c cs ih =>
    rw [oneOf, RegularExpression.matches'_add, RegularExpression.matches'_char, Language.mem_add,
      ih, List.exists_mem_cons_iff]
    rfl

theorem mem_optional {r : RegularExpression Char} {w : List Char} :
    w ∈ (optional r).matches' ↔ w = [] ∨ w ∈ r.matches' := Iff.rfl

theorem mem_star {cs w : List Char} :
    w ∈ (oneOf cs).star.matches' ↔ ∀ c ∈ w, c ∈ cs := by
  rw [RegularExpression.matches'_star, Language.mem_kstar]
  constructor
  · rintro ⟨ws, rfl, hws⟩ c hc
    obtain ⟨u, hu, hcu⟩ := List.mem_flatten.1 hc
    obtain ⟨x, hx, rfl⟩ := mem_oneOf.1 (hws u hu)
    rwa [List.mem_singleton.1 hcu]
  · intro h
    refine ⟨w.map ([·]), by rw [← List.flatMap_def, List.flatMap_singleton'], fun u hu => ?_⟩
    obtain ⟨c, hc, rfl⟩ := List.mem_map.1 hu
    exact mem_oneOf.2 ⟨c, h c hc, rfl⟩

theorem mem_upTo {cs w : List Char} {n : Nat} :
    w ∈ (upTo n (oneOf cs)).matches' ↔ w.length ≤ n ∧ ∀ c ∈ w, c ∈ cs := by
  rw [upTo, RegularExpression.matches'_pow]
  induction n generalizing w with
  | zero =>
    rw [pow_zero, Language.mem_one, Nat.le_zero, List.length_eq_zero_iff]
    simp +contextual
  | succ n ih =>
    rw [pow_succ', Language.mem_mul]
    simp only [mem_optional, mem_oneOf, ih]
    constructor
    · rintro ⟨u, rfl | ⟨c, hc, rfl⟩, w, ⟨hlen, hw⟩, rfl⟩
      · exact ⟨Nat.le_succ_of_le hlen, hw⟩
      · exact ⟨Nat.succ_le_succ hlen, List.forall_mem_cons.2 ⟨hc, hw⟩⟩
    · rintro ⟨hlen, hw⟩
      cases w with
      | nil => exact ⟨[], .inl rfl, [], ⟨Nat.zero_le n, hw⟩, rfl⟩
      | cons c w =>
        rw [List.forall_mem_cons] at hw
        exact ⟨[c], .inr ⟨c, hw.1, rfl⟩, w, ⟨Nat.le_of_succ_le_succ hlen, hw.2⟩, rfl⟩

/-- `t(m t)?` -/
theorem mem_between {ts w : List Char} {m : RegularExpression Char} :
    w ∈ (oneOf ts * optional (m * oneOf ts)).matches' ↔
      (∃ a ∈ ts, w = [a]) ∨
        ∃ a ∈ ts, ∃ u ∈ m.matches', ∃ b ∈ ts, w = a :: (u ++ [b]) := by
  simp only [RegularExpression.matches'_mul, Language.mem_mul, mem_optional, mem_oneOf]
  constructor
  · rintro ⟨_, ⟨a, ha, rfl⟩, _, rfl | ⟨u, hu, _, ⟨b, hb, rfl⟩, rfl⟩, rfl⟩
    · exact .inl ⟨a, ha, rfl⟩
    · exact .inr ⟨a, ha, u, hu, b, hb, rfl⟩
  · rintro (⟨a, ha, rfl⟩ | ⟨a, ha, u, hu, b, hb, rfl⟩)
    · exact ⟨[a], ⟨a, ha, rfl⟩, [], .inl rfl, rfl⟩
    · exact ⟨[a], ⟨a, ha, rfl⟩, u ++ [b], .inr ⟨u, hu, [b], ⟨b, hb, rfl⟩, rfl⟩, rfl⟩

end Grammar

open Grammar

/-! ## DNS labels -/

namespace DnsLabel

/-- `[a-z0-9]` -/
def tips : List Char := span 'a' 'z' ++ span '0' '9'

/-- `[a-z0-9]([-a-z0-9]*[a-z0-9])?` -/
def grammar : RegularExpression Char :=
  oneOf tips * optional ((oneOf ('-' :: tips)).star * oneOf tips)

theorem mem_tips {c : Char} : c ∈ tips ↔ isTip c = true := by
  rw [tips, List.mem_append, mem_span (by decide), mem_span (by decide)]
  simp [isTip, Char.isLower, Char.isDigit, UInt32.le_iff_toNat_le]

theorem mem_inner {c : Char} : c ∈ '-' :: tips ↔ isInner c = true := by
  rw [List.mem_cons, mem_tips, isInner, Bool.or_eq_true, beq_iff_eq, or_comm]

theorem mem_grammar {w : List Char} : w ∈ grammar.matches' ↔ Framed isTip isInner w := by
  rw [grammar, mem_between]
  simp only [mem_star, mem_tips, mem_inner]
  constructor
  · rintro (⟨a, ha, rfl⟩ | ⟨a, ha, u, hu, b, hb, rfl⟩)
    · exact .single ha
    · exact .wide ha hu hb
  · rintro (ha | ⟨ha, hu, hb⟩)
    · exact .inl ⟨_, ha, rfl⟩
    · exact .inr ⟨_, ha, _, hu, _, hb, rfl⟩

end DnsLabel

/-! ## Parts of labels -/

namespace LabelPart

/-- `[A-Za-z0-9]` -/
def tips : List Char := span 'A' 'Z' ++ span 'a' 'z' ++ span '0' '9'

/-- `[A-Za-z0-9]([A-Za-z0-9_.-]{0,61}[A-Za-z0-9])?` -/
def grammar : RegularExpression Char :=
  oneOf tips * optional (upTo 61 (oneOf (tips ++ ['_', '.', '-'])) * oneOf tips)

theorem mem_tips {c : Char} : c ∈ tips ↔ isTip c = true := by
  rw [tips, List.mem_append, List.mem_append, mem_span (by decide), mem_span (by decide),
    mem_span (by decide), isTip, Char.isAlphanum, Bool.or_eq_true, isAlpha_iff, isDigit_iff]
  rfl

theorem mem_inner {c : Char} : c ∈ tips ++ ['_', '.', '-'] ↔ isInner c = true := by
  rw [List.mem_append, mem_tips]
  simp only [isInner, isTip, List.mem_cons, List.not_mem_nil, or_false, Bool.or_eq_true, beq_iff_eq]
  tauto

/-- The two ends and the 61 characters between them are the limit. -/
theorem mem_grammar {w : List Char} :
    w ∈ grammar.matches' ↔ Framed isTip isInner w ∧ w.length ≤ identifierLimit := by
  have hlimit : identifierLimit = 61 + 2 := rfl
  rw [grammar, mem_between]
  simp only [mem_upTo, mem_tips, mem_inner]
  constructor
  · rintro (⟨a, ha, rfl⟩ | ⟨a, ha, u, ⟨hlen, hu⟩, b, hb, rfl⟩)
    · exact ⟨.single ha, (by decide : 1 ≤ identifierLimit)⟩
    · refine ⟨.wide ha hu hb, ?_⟩
      rw [List.length_cons, List.length_append, List.length_singleton]
      omega
  · rintro ⟨ha | ⟨ha, hu, hb⟩, hlen⟩
    · exact .inl ⟨_, ha, rfl⟩
    · rw [List.length_cons, List.length_append, List.length_singleton] at hlen
      exact .inr ⟨_, ha, _, ⟨by omega, hu⟩, _, hb, rfl⟩

end LabelPart

/-! ## The checks -/

theorem isOk_iff {ε : Type} {r : Except ε Unit} : r.isOk = true ↔ r = .ok () := by
  cases r <;> simp [Except.isOk, Except.toBool]

/--
A text passes the check for DNS labels iff it matches `[a-z0-9]([-a-z0-9]*[a-z0-9])?` and has at
most 63 characters, and the check for parts of labels iff it matches
`[A-Za-z0-9]([A-Za-z0-9_.-]{0,61}[A-Za-z0-9])?`.
-/
theorem identifier_checks_match (v : String) :
    (DnsLabel.check v = .ok () ↔ v.toList ∈ DnsLabel.grammar.matches' ∧ v.length ≤ 63) ∧
      (LabelPart.check v = .ok () ↔ v.toList ∈ LabelPart.grammar.matches') := by
  constructor
  · rw [← isOk_iff, DnsLabel.mem_grammar]
    exact DnsLabel.accepts_iff
  · rw [← isOk_iff, LabelPart.mem_grammar, String.length_toList]
    exact LabelPart.accepts_iff

end NetGraph
