import TreePattern.Text.Numeral

/-! Decimal numerals denote the numbers that they are written for. -/

namespace TreePattern.Numeral

theorem isDigit_of_mem_ofNat {n : Nat} {c : Char} (h : c ∈ ofNat n) : c.isDigit = true :=
  Nat.isDigit_of_mem_toDigits (by decide) (by decide) h

/-- Only the numeral of zero begins with a zero. -/
theorem exists_ofNat_eq_cons (n : Nat) : ∃ c cs, ofNat n = c :: cs ∧ (c = '0' → n = 0) := by
  induction n using Nat.base_induction 10 (by decide) with
  | single m hm =>
      refine ⟨m.digitChar, [], Nat.toDigits_of_lt_base hm, fun hc => ?_⟩
      have htoNat := Nat.toNat_digitChar_of_lt_ten hm
      rw [hc] at htoNat
      change 48 = 48 + m at htoNat
      omega
  | digit m k hk hm ih =>
      obtain ⟨c, cs, hcons, hzero⟩ := ih
      refine ⟨c, cs ++ [k.digitChar], ?_, fun hc => absurd (hzero hc) (Nat.ne_of_gt hm)⟩
      rw [ofNat, ← Nat.toDigits_append_toDigits (by decide) hm hk, Nat.toDigits_of_lt_base hk,
        ← ofNat, hcons, List.cons_append]

theorem ofNat_zero : ofNat 0 = ['0'] := Nat.toDigits_zero 10

/-! ## Values -/

theorem isDigit_iff {c : Char} : c.isDigit = true ↔ 48 ≤ c.toNat ∧ c.toNat ≤ 57 := by
  simp [Char.isDigit, UInt32.le_iff_toNat_le, ← Char.toNat_val]

theorem value?_of_isDigit {c : Char} (h : c.isDigit = true) :
    Digit.value? 10 c = some (c.toNat - 48) := by
  have hbounds := isDigit_iff.mp h
  simp only [Digit.value?, if_pos h, Option.filter_some, decide_eq_true_eq]
  rw [if_pos (by omega)]

theorem isDigit_ten (c : Char) : Digit.isDigit 10 c = c.isDigit := by
  by_cases h : c.isDigit = true
  · rw [Digit.isDigit, value?_of_isDigit h, h]
    rfl
  · have hnone : Digit.value? 10 c = none := by
      simp only [Digit.value?, if_neg h, Char.le_def, UInt32.le_iff_toNat_le]
      split
      · rename_i hletter
        have : 97 ≤ c.toNat := hletter.1
        rw [Option.filter_some, if_neg (by simp; omega)]
      · split
        · rename_i hletter
          have : 65 ≤ c.toNat := hletter.1
          rw [Option.filter_some, if_neg (by simp; omega)]
        · rfl
    rw [Digit.isDigit, hnone, Bool.eq_false_iff.mpr h]
    rfl

theorem number_eq_ofDigitChars {cs : List Char} (h : ∀ c ∈ cs, c.isDigit = true) (n : Nat) :
    cs.foldl (fun n d => 10 * n + (Digit.value? 10 d).getD 0) n = Nat.ofDigitChars 10 cs n := by
  induction cs generalizing n with
  | nil => rfl
  | cons c cs ih =>
      rw [List.foldl_cons, Nat.ofDigitChars_cons, value?_of_isDigit (h c List.mem_cons_self),
        ih fun d hd => h d (List.mem_cons_of_mem c hd)]
      rfl

theorem radix_of_ne_zero {c : Char} (hc : c ≠ '0') (cs : List Char) :
    radix (c :: cs) = (10, c :: cs) := by
  unfold radix
  split <;> simp_all

theorem radix_ofNat (n : Nat) : radix (ofNat n) = (10, ofNat n) := by
  obtain ⟨c, cs, hcons, hzero⟩ := exists_ofNat_eq_cons n
  by_cases hc : c = '0'
  · rw [hzero hc, ofNat_zero]
    rfl
  · rw [hcons, radix_of_ne_zero hc]

theorem magnitude_ofNat (n : Nat) : magnitude (ofNat n) = n := by
  have hdigits : ∀ c ∈ ofNat n, c.isDigit = true := fun c hc => isDigit_of_mem_ofNat hc
  have hfilter : (ofNat n).filter (· != '_') = ofNat n := by
    apply List.filter_eq_self.mpr
    intro c hc
    rw [bne_iff_ne]
    rintro rfl
    exact absurd (hdigits '_' hc) (by decide)
  rw [magnitude, radix_ofNat]
  change Digit.number 10 ((ofNat n).filter (· != '_')) = n
  rw [hfilter, Digit.number, number_eq_ofDigitChars hdigits]
  exact Nat.ofDigitChars_ten_toDigits

/-- A numeral that begins with a digit has no sign. -/
theorem value_of_isDigit {c : Char} (hc : c.isDigit = true) (cs : List Char) :
    value (c :: cs) = magnitude (c :: cs) := by
  unfold value
  split
  · rename_i heq
    cases heq
    exact absurd hc (by decide)
  · rename_i heq
    cases heq
    exact absurd hc (by decide)
  · rfl

theorem value_ofNat (n : Nat) : value (ofNat n) = n := by
  have hmagnitude := magnitude_ofNat n
  obtain ⟨c, cs, hcons, _⟩ := exists_ofNat_eq_cons n
  have hc : c.isDigit = true := isDigit_of_mem_ofNat (hcons ▸ List.mem_cons_self)
  rw [hcons] at hmagnitude ⊢
  rw [value_of_isDigit hc, hmagnitude]

theorem value_ofInt64 (n : Int64) : value (ofInt64 n) = n.toInt := by
  rw [ofInt64]
  split
  · rw [value, magnitude_ofNat]
    omega
  · rw [value_ofNat]
    omega

/-- Writing a number and reading it again changes nothing. -/
theorem value?_ofInt64 (n : Int64) : value? (ofInt64 n) = some n := by
  rw [value?, value_ofInt64, if_pos ⟨n.minValue_le_toInt, n.toInt_le⟩, Int64.ofInt_toInt]

/-- A number that is not negative is written like a natural number. -/
theorem ofInt64_of_nonneg {n : Int64} (h : 0 ≤ n.toInt) : ofInt64 n = ofNat n.toInt.toNat := by
  rw [ofInt64, if_neg (by omega)]
  congr 1
  omega

end TreePattern.Numeral
