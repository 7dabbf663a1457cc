import NetGraph.Port
import NetGraph.Proofs.Identifier

/-!
# What a port text is read as

* `IsPortText` : the texts that stand for ports, as a grammar;
* `portOfDigits_of_decimal` : digits of any number are read by their value;
* `classify_of_any`, `classify_of_decimal`, `classify_of_range` : the readings of these texts;
* `classify_isReading` : what each reading says of the text, class by class (`IsReading`);
* `isPortText_iff` : the readings that stand for ports are those of the texts in the grammar.
-/

namespace NetGraph

/--
The texts that stand for ports: `any` in some letter case, a number from 1 to 65535, two numbers
around a hyphen, or a DNS label that is not all digits.
-/
inductive IsPortText (v : String) : Prop where
  | any : Text.equalsIgnoringCase v anyPort = true → IsPortText v
  | number {n : Nat} : decimal? v.toList = some n → 1 ≤ n → n ≤ 65535 → IsPortText v
  | range {a b : List Char} {m n : Nat} :
      v.toList = a ++ '-' :: b → decimal? a = some m → decimal? b = some n → IsPortText v
  | name : IsDnsLabel v → decimal? v.toList = none → IsPortText v

/-! ## The word for every port -/

theorem isAlpha_of_equalsAny {v : String} (h : Text.equalsIgnoringCase v anyPort = true) :
    v.toList ≠ [] ∧ ∀ c ∈ v.toList, c.isAlpha = true := by
  have hmap : v.toList.map Char.toLower = ['a', 'n', 'y'] := by
    rw [Text.equalsIgnoringCase, beq_iff_eq] at h
    exact h.trans (by decide)
  constructor
  · intro hnil
    simp [hnil] at hmap
  · intro c hc
    have hall : ['a', 'n', 'y'].all Char.isAlpha = true := by decide
    have hlow : c.toLower ∈ ['a', 'n', 'y'] := hmap ▸ List.mem_map_of_mem hc
    rw [← Char.isAlpha_toLower_eq_isAlpha]
    exact List.all_eq_true.1 hall _ hlow

/-! ## Texts of digits -/

theorem decimal_eq_ofDigitChars {cs : List Char} {n : Nat} :
    decimal? cs = some n ↔
      cs ≠ [] ∧ (∀ c ∈ cs, c.isDigit = true) ∧ Nat.ofDigitChars 10 cs 0 = n := by
  unfold decimal?
  rw [Option.ite_none_right_eq_some, List.all_eq_true, and_assoc, Option.some.injEq]
  rfl

theorem isDigit_of_decimal {cs : List Char} {n : Nat} (h : decimal? cs = some n) :
    cs ≠ [] ∧ ∀ c ∈ cs, c.isDigit = true := by
  obtain ⟨hne, hcs, -⟩ := decimal_eq_ofDigitChars.1 h
  exact ⟨hne, hcs⟩

theorem isDigits_iff {cs : List Char} :
    isDigits cs = true ↔ cs ≠ [] ∧ ∀ c ∈ cs, c.isDigit = true := by
  simp [isDigits]

theorem isDigits_eq_isSome (cs : List Char) : isDigits cs = (decimal? cs).isSome := by
  rw [Bool.eq_iff_iff, isDigits_iff, Option.isSome_iff_exists]
  simp only [decimal_eq_ofDigitChars, exists_and_left, exists_eq', and_true]

theorem digit_lt_ten {c : Char} (h : c.isDigit = true) : c.toNat - '0'.toNat < 10 := by
  have hbounds := isDigit_iff.1 h
  change c.toNat - 48 < 10
  omega

/-- Digits after `n` lead to a value between those of `n` and `n + 1` with as many zeros. -/
theorem ofDigitChars_bounds {cs : List Char} (h : ∀ c ∈ cs, c.isDigit = true) (n : Nat) :
    n * 10 ^ cs.length ≤ Nat.ofDigitChars 10 cs n ∧
      Nat.ofDigitChars 10 cs n < (n + 1) * 10 ^ cs.length := by
  induction cs generalizing n with
  | nil => simp
  | cons c cs ih =>
    have hc := digit_lt_ten (h c List.mem_cons_self)
    obtain ⟨hlo, hhi⟩ := ih (fun x hx => h x (List.mem_cons_of_mem c hx))
      (10 * n + (c.toNat - '0'.toNat))
    rw [Nat.ofDigitChars_cons, List.length_cons, Nat.pow_succ]
    constructor
    · calc n * (10 ^ cs.length * 10)
        _ = 10 * n * 10 ^ cs.length := by ring
        _ ≤ (10 * n + (c.toNat - '0'.toNat)) * 10 ^ cs.length :=
          Nat.mul_le_mul_right _ (Nat.le_add_right ..)
        _ ≤ _ := hlo
    · calc Nat.ofDigitChars 10 cs (10 * n + (c.toNat - '0'.toNat))
        _ < (10 * n + (c.toNat - '0'.toNat) + 1) * 10 ^ cs.length := hhi
        _ ≤ 10 * (n + 1) * 10 ^ cs.length := Nat.mul_le_mul_right _ (by omega)
        _ = (n + 1) * (10 ^ cs.length * 10) := by ring

/-- Zeros in front do not count. -/
theorem ofDigitChars_dropWhile (cs : List Char) :
    Nat.ofDigitChars 10 (cs.dropWhile (· == '0')) 0 = Nat.ofDigitChars 10 cs 0 := by
  induction cs with
  | nil => rfl
  | cons c cs ih =>
    by_cases hc : c = '0'
    · subst hc
      exact ih
    · rw [List.dropWhile_cons_of_neg (by simpa using hc)]

/-! ## Digits around a hyphen -/

theorem decimal_append_hyphen (a b : List Char) : decimal? (a ++ '-' :: b) = none := by
  have hall : (a ++ '-' :: b).all Char.isDigit = false := by simp
  rw [decimal?, hall]
  simp

theorem splitAtHyphen_append {a : List Char} (h : ∀ c ∈ a, c.isDigit = true) (b : List Char) :
    splitAtHyphen? (a ++ '-' :: b) = some (a, b) := by
  have hne : ∀ c ∈ a, decide (c ≠ '-') = true := by
    intro c hc
    have hd := h c hc
    simp only [decide_eq_true_eq]
    rintro rfl
    exact absurd hd (by decide)
  rw [splitAtHyphen?, List.span_eq_takeWhile_dropWhile, List.takeWhile_append_of_pos hne,
    List.dropWhile_append_of_pos hne]
  simp

theorem eq_append_of_splitAtHyphen {cs a b : List Char} (h : splitAtHyphen? cs = some (a, b)) :
    cs = a ++ '-' :: b := by
  rw [splitAtHyphen?, List.span_eq_takeWhile_dropWhile] at h
  have hx := List.head?_dropWhile_not (fun c => decide (c ≠ '-')) cs
  have hcs := List.takeWhile_append_dropWhile (p := fun c => decide (c ≠ '-')) (l := cs)
  cases hd : cs.dropWhile (fun c => decide (c ≠ '-')) with
  | nil =>
    rw [hd] at h
    cases h
  | cons x rest =>
    rw [hd] at h hx hcs
    obtain ⟨rfl, rfl⟩ := Prod.mk.inj (Option.some.inj h)
    have hx' : x = '-' := by simpa using hx
    subst hx'
    exact hcs.symm

/-! ## Numbers, ranges and words -/

theorem portNumber_eq_some_iff {n : Nat} {k : UInt16} :
    portNumber? n = some k ↔ n = k.toNat ∧ 1 ≤ n := by
  unfold portNumber?
  split
  · next h =>
    have hn : (UInt16.ofNat n).toNat = n := UInt16.toNat_ofNat_of_lt' (Nat.lt_succ_of_le h.2)
    rw [Option.some.injEq]
    constructor
    · rintro rfl
      exact ⟨hn.symm, h.1⟩
    · rintro ⟨rfl, -⟩
      exact UInt16.toNat_inj.1 hn
  · next h =>
    refine iff_of_false (fun hk => nomatch hk) ?_
    rintro ⟨rfl, hlo⟩
    exact h ⟨hlo, Nat.le_of_lt_succ k.toNat_lt⟩

theorem portNumber_eq_none_iff {n : Nat} : portNumber? n = none ↔ ¬ (1 ≤ n ∧ n ≤ 65535) := by
  unfold portNumber?
  split
  · next h => exact iff_of_false (fun hn => nomatch hn) (not_not_intro h)
  · next h => exact iff_of_true rfl h

/-- A value of more digits than a port number has is none, if the first one is no zero. -/
theorem portNumber_eq_none_of_long {c : Char} {cs : List Char} (hc : c ≠ '0')
    (h : ∀ x ∈ c :: cs, x.isDigit = true) (hlong : portNumberLength ≤ cs.length) :
    portNumber? (Nat.ofDigitChars 10 (c :: cs) 0) = none := by
  have hfirst : 1 ≤ c.toNat - '0'.toNat := by
    have hdigit := isDigit_iff.1 (h c List.mem_cons_self)
    have hne : c.toNat ≠ 48 := fun heq => hc (Char.toNat_inj.1 heq)
    change 1 ≤ c.toNat - 48
    omega
  have hbig : 10 ^ portNumberLength ≤ Nat.ofDigitChars 10 (c :: cs) 0 := by
    rw [Nat.ofDigitChars_cons, Nat.mul_zero, Nat.zero_add]
    calc 10 ^ portNumberLength
      _ ≤ 10 ^ cs.length := Nat.pow_le_pow_right (by decide) hlong
      _ ≤ (c.toNat - '0'.toNat) * 10 ^ cs.length := Nat.le_mul_of_pos_left _ hfirst
      _ ≤ _ := (ofDigitChars_bounds (fun x hx => h x (List.mem_cons_of_mem c hx)) _).1
  rw [portNumber_eq_none_iff]
  intro hport
  have hlimit : 10 ^ portNumberLength = 100000 := rfl
  omega

/-- As many digits as a port number has make a value that fits into 32 bits. -/
theorem word_of_short {cs : List Char} (hne : cs ≠ []) (h : ∀ c ∈ cs, c.isDigit = true)
    (hshort : cs.length ≤ portNumberLength) :
    ∃ w, word32? cs = some w ∧ w.toNat = Nat.ofDigitChars 10 cs 0 := by
  have hsmall : Nat.ofDigitChars 10 cs 0 < UInt32.size := by
    calc Nat.ofDigitChars 10 cs 0
      _ < (0 + 1) * 10 ^ cs.length := (ofDigitChars_bounds h 0).2
      _ ≤ 10 ^ portNumberLength := by
        rw [Nat.zero_add, Nat.one_mul]
        exact Nat.pow_le_pow_right (by decide) hshort
      _ < UInt32.size := by decide
  refine ⟨UInt32.ofNat (Nat.ofDigitChars 10 cs 0), ?_, UInt32.toNat_ofNat_of_lt' hsmall⟩
  rw [word32?, decimal_eq_ofDigitChars.2 ⟨hne, h, rfl⟩, Option.bind_some, if_pos hsmall]

/-- Neither the look at the number of digits nor the step to 32 bits loses a port number. -/
theorem portOfDigits_of_decimal {cs : List Char} {n : Nat} (h : decimal? cs = some n) :
    portOfDigits? cs = portNumber? n := by
  obtain ⟨-, hcs, rfl⟩ := decimal_eq_ofDigitChars.1 h
  have hfirst := List.head?_dropWhile_not (· == '0') cs
  have hdigits : ∀ c ∈ cs.dropWhile (· == '0'), c.isDigit = true :=
    fun c hc => hcs c ((List.dropWhile_sublist _).subset hc)
  rw [← ofDigitChars_dropWhile]
  unfold portOfDigits?
  dsimp only
  cases hdrop : cs.dropWhile (· == '0') with
  | nil => rfl
  | cons c rest =>
    rw [hdrop] at hfirst hdigits
    have hc : c ≠ '0' := by simpa using hfirst
    by_cases hlong : (c :: rest).length > portNumberLength
    · rw [if_pos hlong, portNumber_eq_none_of_long hc hdigits (Nat.le_of_lt_succ hlong)]
    · obtain ⟨w, hw, hvalue⟩ :=
        word_of_short (List.cons_ne_nil c rest) hdigits (Nat.le_of_not_lt hlong)
      rw [if_neg hlong, if_neg (by simp), hw, Option.bind_some, hvalue]

/-- Two texts of digits around a hyphen, of the values `m` and `n`. -/
def IsDigitRange (v : String) (m n : Nat) : Prop :=
  ∃ a b, v.toList = a ++ '-' :: b ∧ decimal? a = some m ∧ decimal? b = some n

/-- Neither blank, nor `any`, nor digits, nor two texts of digits around a hyphen. -/
structure IsWord (v : String) : Prop where
  not_blank : Text.isBlank v = false
  not_any : Text.equalsIgnoringCase v anyPort = false
  not_decimal : decimal? v.toList = none
  not_range : ∀ m n, ¬ IsDigitRange v m n

/-! ## The readings -/

namespace PortSyntax

theorem range_of_decimal {a b : List Char} {m n : Nat} (ha : decimal? a = some m)
    (hb : decimal? b = some n) :
    range? (a ++ '-' :: b) = some (ofBounds (portNumber? m) (portNumber? n)) := by
  have hdigits : (isDigits a && isDigits b) = true := by
    rw [isDigits_eq_isSome, isDigits_eq_isSome, ha, hb]
    rfl
  rw [range?, splitAtHyphen_append (isDigit_of_decimal ha).2]
  simp only [Option.bind_eq_bind, Option.bind_some]
  rw [if_pos hdigits, portOfDigits_of_decimal ha, portOfDigits_of_decimal hb]
  rfl

theorem decimal_of_range {cs : List Char} {r : PortSyntax} (h : range? cs = some r) :
    ∃ a b m n, cs = a ++ '-' :: b ∧ decimal? a = some m ∧ decimal? b = some n ∧
      r = ofBounds (portNumber? m) (portNumber? n) := by
  simp only [range?, Option.bind_eq_bind, Option.bind_eq_some_iff] at h
  obtain ⟨⟨a, b⟩, hsplit, h⟩ := h
  by_cases hdigits : (isDigits a && isDigits b) = true
  · rw [if_pos hdigits] at h
    rw [Bool.and_eq_true, isDigits_eq_isSome, isDigits_eq_isSome] at hdigits
    obtain ⟨m, ha⟩ := Option.isSome_iff_exists.1 hdigits.1
    obtain ⟨n, hb⟩ := Option.isSome_iff_exists.1 hdigits.2
    rw [portOfDigits_of_decimal ha, portOfDigits_of_decimal hb] at h
    exact ⟨a, b, m, n, eq_append_of_splitAtHyphen hsplit, ha, hb, (Option.some.inj h).symm⟩
  · rw [if_neg hdigits] at h
    cases h

/-- A text that starts with a digit is neither blank nor `any`. -/
theorem not_blank_of_isDigit {v : String} {c : Char} {cs : List Char} (hv : v.toList = c :: cs)
    (hc : c.isDigit = true) :
    Text.isBlank v = false ∧ Text.equalsIgnoringCase v anyPort = false := by
  constructor
  · rw [Text.isBlank, hv, List.all_cons, isSpace_of_isAlphanum (by simp [Char.isAlphanum, hc])]
    rfl
  · rw [← Bool.not_eq_true]
    intro h
    have := not_isDigit_of_isAlpha ((isAlpha_of_equalsAny h).2 c (by simp [hv]))
    rw [hc] at this
    cases this

theorem classify_of_any {v : String} (h : Text.equalsIgnoringCase v anyPort = true) :
    classify v = .any := by
  obtain ⟨hne, hall⟩ := isAlpha_of_equalsAny h
  have hblank : Text.isBlank v = false := by
    rw [Text.isBlank, List.all_eq_false]
    refine ⟨_, List.head_mem hne, ?_⟩
    rw [isSpace_of_isAlphanum (by simp [Char.isAlphanum, hall _ (List.head_mem hne)])]
    exact Bool.false_ne_true
  unfold classify
  simp only [hblank, h, Bool.false_eq_true, if_false, if_true]

theorem classify_of_decimal {v : String} {n : Nat} (h : decimal? v.toList = some n) :
    classify v = (portNumber? n).elim .numberOutOfRange .number := by
  obtain ⟨hne, hall⟩ := isDigit_of_decimal h
  obtain ⟨c, cs, hv⟩ := List.exists_cons_of_ne_nil hne
  obtain ⟨hblank, hany⟩ := not_blank_of_isDigit hv (hall c (by simp [hv]))
  have hdigits : isDigits v.toList = true := isDigits_iff.2 (isDigit_of_decimal h)
  unfold classify
  simp only [hblank, hany, hdigits, Bool.false_eq_true, if_false, if_true,
    portOfDigits_of_decimal h]

theorem classify_of_range {v : String} {a b : List Char} {m n : Nat}
    (hv : v.toList = a ++ '-' :: b) (ha : decimal? a = some m) (hb : decimal? b = some n) :
    classify v = ofBounds (portNumber? m) (portNumber? n) := by
  obtain ⟨hne, hall⟩ := isDigit_of_decimal ha
  obtain ⟨c, cs, rfl⟩ := List.exists_cons_of_ne_nil hne
  obtain ⟨hblank, hany⟩ := not_blank_of_isDigit hv (hall c List.mem_cons_self)
  have hdigits : isDigits (c :: cs ++ '-' :: b) = false := by
    rw [isDigits_eq_isSome, decimal_append_hyphen]
    rfl
  unfold classify
  simp only [hblank, hany, hdigits, hv, range_of_decimal ha hb, Bool.false_eq_true, if_false]

/-- The readings of a port text, class by class. -/
inductive IsReading (v : String) : PortSyntax → Prop where
  | empty : Text.isBlank v = true → IsReading v .empty
  | any : Text.equalsIgnoringCase v anyPort = true → IsReading v .any
  | number {n : UInt16} : decimal? v.toList = some n.toNat → 1 ≤ n.toNat → IsReading v (.number n)
  | numberOutOfRange {n : Nat} : decimal? v.toList = some n → ¬ (1 ≤ n ∧ n ≤ 65535) →
      IsReading v .numberOutOfRange
  | range {first last : UInt16} : IsDigitRange v first.toNat last.toNat → 1 ≤ first.toNat →
      1 ≤ last.toNat → IsReading v (.range first last)
  | rangeOutOfBounds {m n : Nat} : IsDigitRange v m n →
      ¬ ((1 ≤ m ∧ m ≤ 65535) ∧ 1 ≤ n ∧ n ≤ 65535) → IsReading v .rangeOutOfBounds
  | named : IsWord v → IsDnsLabel v → IsReading v .named
  | invalid : IsWord v → ¬ IsDnsLabel v → IsReading v .invalid

theorem isReading_number {v : String} {n : Nat} (h : decimal? v.toList = some n) :
    IsReading v ((portNumber? n).elim .numberOutOfRange .number) := by
  cases hn : portNumber? n with
  | none => exact .numberOutOfRange h (portNumber_eq_none_iff.1 hn)
  | some k =>
    obtain ⟨rfl, hlo⟩ := portNumber_eq_some_iff.1 hn
    exact .number h hlo

theorem isReading_ofBounds {v : String} {m n : Nat} (h : IsDigitRange v m n) :
    IsReading v (ofBounds (portNumber? m) (portNumber? n)) := by
  cases hm : portNumber? m with
  | none => exact .rangeOutOfBounds h fun hb => portNumber_eq_none_iff.1 hm hb.1
  | some first =>
    cases hn : portNumber? n with
    | none => exact .rangeOutOfBounds h fun hb => portNumber_eq_none_iff.1 hn hb.2
    | some last =>
      obtain ⟨rfl, hfirst⟩ := portNumber_eq_some_iff.1 hm
      obtain ⟨rfl, hlast⟩ := portNumber_eq_some_iff.1 hn
      exact .range h hfirst hlast

theorem range_eq_none {v : String} (h : range? v.toList = none) (m n : Nat) :
    ¬ IsDigitRange v m n := by
  rintro ⟨a, b, hv, ha, hb⟩
  rw [hv, range_of_decimal ha hb] at h
  cases h

theorem classify_isReading (v : String) : IsReading v (classify v) := by
  unfold classify
  split
  · next hblank => exact .empty hblank
  · next hblank =>
    split
    · next hany => exact .any hany
    · next hany =>
      split
      · next hdigits =>
        obtain ⟨n, hdec⟩ := Option.isSome_iff_exists.1 (isDigits_eq_isSome _ ▸ hdigits)
        rw [portOfDigits_of_decimal hdec]
        exact isReading_number hdec
      · next hdigits =>
        have hdec : decimal? v.toList = none := by
          rwa [isDigits_eq_isSome, Bool.not_eq_true, Option.isSome_eq_false_iff,
            Option.isNone_iff_eq_none] at hdigits
        split
        · next hr =>
          obtain ⟨a, b, m, n, hv, ha, hb, rfl⟩ := decimal_of_range hr
          exact isReading_ofBounds ⟨a, b, hv, ha, hb⟩
        · next hr =>
          have hword : IsWord v :=
            ⟨Bool.not_eq_true _ ▸ hblank, Bool.not_eq_true _ ▸ hany, hdec, range_eq_none hr⟩
          split
          · next hacc => exact .named hword (DnsLabel.accepts_iff.1 hacc)
          · next hacc => exact .invalid hword fun h => hacc (DnsLabel.accepts_iff.2 h)

/-! ## Texts that stand for ports -/

/-- Whether the text has a reading as a port or as a range of ports. -/
def isReadable : PortSyntax → Bool
  | .empty | .numberOutOfRange | .invalid => false
  | _ => true

theorem isReadable_ofBounds (first last : Option UInt16) :
    (ofBounds first last).isReadable = true := by
  unfold ofBounds
  split <;> rfl

theorem isReadable_number {n : Nat} :
    ((portNumber? n).elim numberOutOfRange number).isReadable = true ↔ 1 ≤ n ∧ n ≤ 65535 := by
  unfold portNumber?
  split
  · next h => exact iff_of_true rfl h
  · next h => exact iff_of_false Bool.false_ne_true h

theorem isPortText_iff {v : String} : IsPortText v ↔ (classify v).isReadable = true := by
  constructor
  · rintro (h | ⟨h, hlo, hhi⟩ | ⟨hv, ha, hb⟩ | ⟨hname, hdec⟩)
    · rw [classify_of_any h]
      rfl
    · rw [classify_of_decimal h]
      exact isReadable_number.2 ⟨hlo, hhi⟩
    · rw [classify_of_range hv ha hb]
      exact isReadable_ofBounds _ _
    · have hread := classify_isReading v
      generalize classify v = s at hread ⊢
      cases hread with
      | any | range | rangeOutOfBounds | named => rfl
      | empty hblank =>
        rw [(DnsLabel.accepts_iff_rules.1 (DnsLabel.accepts_iff.2 hname)).1] at hblank
        cases hblank
      | number hd | numberOutOfRange hd =>
        rw [hdec] at hd
        cases hd
      | invalid _ hno => exact absurd hname hno
  · intro h
    have hread := classify_isReading v
    generalize classify v = s at h hread
    cases hread with
    | any hany => exact .any hany
    | number hdec hlo => exact .number hdec hlo (Nat.le_of_lt_succ (UInt16.toNat_lt _))
    | range hr | rangeOutOfBounds hr =>
      obtain ⟨a, b, hv, ha, hb⟩ := hr
      exact .range hv ha hb
    | named hword hname => exact .name hname hword.not_decimal
    | empty | numberOutOfRange | invalid => cases h

end PortSyntax

instance (v : String) : Decidable (IsPortText v) :=
  decidable_of_iff _ PortSyntax.isPortText_iff.symm

end NetGraph
