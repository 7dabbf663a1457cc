import NetGraph.Yaml.Plain

/-!
# Written numbers are read as these numbers

* `digits?_of_isDigit` : decimal digits have the value that they denote;
* `hasLeadingZero_toDigits` : the digits of a number do not start with a zero before more digits;
* `resolve_toString` : a number of 128 bits in plain digits stands for itself.
-/

namespace NetGraph.Yaml.PlainValue

theorem digit?_of_isDigit {c : Char} (h : c.isDigit = true) :
    digit? 10 c = some (c.toNat - '0'.toNat) := by
  have hlt : c.toNat - '0'.toNat < 10 := by
    rw [Char.isDigit_iff_toNat] at h
    change 48 ≤ c.toNat ∧ c.toNat ≤ 57 at h
    change c.toNat - 48 < 10
    omega
  rw [digit?, hexValue?, if_pos h, Option.filter_some, decide_eq_true hlt, if_pos rfl]

theorem digits?_of_isDigit {cs : List Char} (hne : cs ≠ []) (h : ∀ c ∈ cs, c.isDigit = true) :
    digits? 10 cs = some (Nat.ofDigitChars 10 cs 0) := by
  have hfold : ∀ (ds : List Char) (n : Nat), (∀ c ∈ ds, c.isDigit = true) →
      ds.foldlM (fun n c => (digit? 10 c).map (10 * n + ·)) n =
        some (Nat.ofDigitChars 10 ds n) := by
    intro ds
    induction ds with
    | nil => simp
    | cons d ds ih =>
      intro n hds
      rw [List.forall_mem_cons] at hds
      rw [List.foldlM_cons, digit?_of_isDigit hds.1, Nat.ofDigitChars_cons]
      exact ih _ hds.2
  rw [digits?, if_neg (by simpa using hne)]
  exact hfold cs 0 h

theorem isDigit_toDigits (n : Nat) : ∀ c ∈ Nat.toDigits 10 n, c.isDigit = true :=
  fun _ hc => Nat.isDigit_of_mem_toDigits (by decide) (by decide) hc

theorem head?_toDigits {n : Nat} (hn : 0 < n) : (Nat.toDigits 10 n).head? ≠ some '0' := by
  induction n using Nat.strongRecOn with
  | _ n ih =>
    rw [Nat.toDigits_eq_if (by decide)]
    split
    · next hlt => simpa using Nat.pos_iff_ne_zero.1 hn
    · next hge =>
      have hpos : 0 < n / 10 := Nat.div_pos (Nat.not_lt.1 hge) (by decide)
      rw [List.head?_append, Option.or_of_isSome (by simp [Nat.toDigits_ne_nil])]
      exact ih (n / 10) (Nat.div_lt_self hn (by decide)) hpos

theorem hasLeadingZero_toDigits (n : Nat) : hasLeadingZero (Nat.toDigits 10 n) = false := by
  have hdigit := isDigit_toDigits n
  rcases Nat.eq_zero_or_pos n with rfl | hn
  · decide
  · have hhead := head?_toDigits hn
    unfold hasLeadingZero
    split
    · next hcs => exact absurd (hdigit '+' (by simp [hcs])) (by decide)
    · next hcs => exact absurd (hdigit '-' (by simp [hcs])) (by decide)
    · next hcs => simp [hcs] at hhead
    · rfl

theorem unsigned?_of_isDigit {cs : List Char} (hne : cs ≠ []) (h : ∀ c ∈ cs, c.isDigit = true) :
    unsigned? cs = some (Nat.ofDigitChars 10 cs 0) := by
  unfold unsigned?
  split
  · exact absurd (h 'x' (by simp)) (by decide)
  · exact absurd (h 'o' (by simp)) (by decide)
  · exact absurd (h 'b' (by simp)) (by decide)
  · exact digits?_of_isDigit hne h

theorem int?_toDigits {n : Nat} (hn : n < Nat.pow 2 128) :
    int? (Nat.toDigits 10 n) = some (n : Int) := by
  have hdigit := isDigit_toDigits n
  rw [int?, hasLeadingZero_toDigits, if_neg Bool.false_ne_true]
  · rw [unsigned?_of_isDigit Nat.toDigits_ne_nil hdigit, Nat.ofDigitChars_ten_toDigits]
    exact if_pos hn
  · exact fun ds hcs => absurd (hdigit '-' (by simp [hcs])) (by decide)
  · exact fun ds hcs => absurd (hdigit '+' (by simp [hcs])) (by decide)

/-- A text of digits is none of the words with another character. -/
theorem not_mem_of_isDigit {s : String} {words : List String}
    (hs : ∀ c ∈ s.toList, c.isDigit = true)
    (hwords : ∀ w ∈ words, w.toList.all Char.isDigit = false) : s ∉ words := by
  intro hmem
  have hall := hwords s hmem
  rw [List.all_eq_true.2 hs] at hall
  cases hall

theorem resolve_toString {n : Nat} (hn : n < Nat.pow 2 128) : resolve (toString n) = .int n := by
  have hlist : (toString n).toList = Nat.toDigits 10 n := by
    rw [Nat.toString_eq_ofList_toDigits, String.toList_ofList]
  have hdigit : ∀ c ∈ (toString n).toList, c.isDigit = true := hlist ▸ isDigit_toDigits n
  have hempty : (toString n).isEmpty = false := by
    rw [← Bool.not_eq_true, String.isEmpty_iff, ← String.toList_eq_nil_iff, hlist]
    exact Nat.toDigits_ne_nil
  have hnull : isNull (toString n) = false :=
    decide_eq_false (not_mem_of_isDigit hdigit (by decide))
  have hbool : bool? (toString n) = none := by
    rw [bool?, if_neg (not_mem_of_isDigit hdigit (by decide)),
      if_neg (not_mem_of_isDigit hdigit (by decide))]
  rw [resolve, hempty, hnull, hbool, hlist, int?_toDigits hn]
  rfl

end NetGraph.Yaml.PlainValue
