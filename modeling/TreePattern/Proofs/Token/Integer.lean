import Mathlib.Data.Nat.Digits.Defs
import TreePattern.Proofs.Token.Longest
import TreePattern.Proofs.Token.Standing

/-! Integer tokens and the numbers that they denote. What a numeral denotes is said by its sign, its
radix and the places of its digits. Main statement: `Numeral.integer_tokens_denote` — every integer
token denotes one number and is read as it if it has 64 bits, and not at all otherwise; adding up
the digits in 128 bits makes no difference; and numbers are written as tokens that denote them. -/

namespace TreePattern.Numeral

open Token (IsDigits IsMoreDigits IsUnsigned IsInteger)

/-! ## What numerals denote -/

def hexadecimalDigits : List Char :=
  ['0', '1', '2', '3', '4', '5', '6', '7', '8', '9', 'a', 'b', 'c', 'd', 'e', 'f']

/-- The values of digits, the most significant one first. Underscores have none. -/
def places (cs : List Char) : List Nat :=
  (cs.filter (· != '_')).map fun c => hexadecimalDigits.idxOf c.toLower

/-- The number with the given digits. -/
def positional (base : Nat) (cs : List Char) : Nat := Nat.ofDigits base (places cs).reverse

/-- The letters that tell a radix behind a zero. -/
def bases : List (Char × Nat) :=
  [('b', 2), ('B', 2), ('o', 8), ('O', 8), ('d', 10), ('D', 10), ('x', 16), ('X', 16)]

/-- What a numeral without a sign denotes. A zero in front of other digits makes them octal. -/
inductive DenotesUnsigned : List Char → Nat → Prop where
  | decimal {c cs} (hc : c ≠ '0') (h : IsDigits 10 (c :: cs)) :
      DenotesUnsigned (c :: cs) (positional 10 (c :: cs))
  | zero : DenotesUnsigned ['0'] 0
  | octal {c cs} (h : IsMoreDigits 8 (c :: cs)) :
      DenotesUnsigned ('0' :: c :: cs) (positional 8 (c :: cs))
  | based {letter base cs} (hletter : (letter, base) ∈ bases) (h : IsDigits base cs) :
      DenotesUnsigned ('0' :: letter :: cs) (positional base cs)

inductive Denotes : List Char → Int → Prop where
  | unsigned {cs n} (h : DenotesUnsigned cs n) : Denotes cs n
  | plus {cs n} (h : DenotesUnsigned cs n) : Denotes ('+' :: cs) n
  | minus {cs n} (h : DenotesUnsigned cs n) : Denotes ('-' :: cs) (-n)

theorem mem_bases_iff {letter : Char} {base : Nat} :
    (letter, base) ∈ bases ↔ Token.radix? letter = some base := by
  constructor
  · intro h
    simp only [bases, List.mem_cons, Prod.mk.injEq, List.not_mem_nil, or_false] at h
    rcases h with ⟨rfl, rfl⟩ | ⟨rfl, rfl⟩ | ⟨rfl, rfl⟩ | ⟨rfl, rfl⟩ | ⟨rfl, rfl⟩ | ⟨rfl, rfl⟩ |
      ⟨rfl, rfl⟩ | ⟨rfl, rfl⟩ <;> rfl
  · intro h
    unfold Token.radix? at h
    split at h
    all_goals first
      | cases h
        decide
      | cases h

theorem exists_denotesUnsigned {cs : List Char} (h : IsUnsigned cs) :
    ∃ n, DenotesUnsigned cs n := by
  cases h with
  | decimal hc h => exact ⟨_, .decimal hc h⟩
  | @octal cs h =>
      cases cs with
      | nil => exact ⟨_, .zero⟩
      | cons c cs => exact ⟨_, .octal h⟩
  | radix h =>
      obtain ⟨letter, base, cs, rfl, hletter, h⟩ := h
      exact ⟨_, .based (mem_bases_iff.mpr hletter) h⟩

theorem exists_denotes {l : List Char} (h : IsInteger l) : ∃ n, Denotes l n := by
  rcases h with h | ⟨cs, rfl | rfl, h⟩
  · obtain ⟨n, hn⟩ := exists_denotesUnsigned h
    exact ⟨n, .unsigned hn⟩
  · obtain ⟨n, hn⟩ := exists_denotesUnsigned h
    exact ⟨n, .plus hn⟩
  · obtain ⟨n, hn⟩ := exists_denotesUnsigned h
    exact ⟨-n, .minus hn⟩

/-! ## Digits are added up to the number -/

theorem bounds_of_value? {base : Nat} {c : Char} {d : Nat} (h : Digit.value? base c = some d) :
    c.toNat < 128 ∧ Digit.value? 16 c = some d := by
  simp only [Digit.value?, Option.filter_eq_some_iff, decide_eq_true_eq] at h ⊢
  obtain ⟨hvalue, _⟩ := h
  have hbounds : c.toNat < 128 ∧ d < 16 := by
    split at hvalue
    · have := isDigit_iff.mp ‹_›
      cases hvalue
      omega
    · simp only [Char.le_def, UInt32.le_iff_toNat_le, Char.toNat_val] at hvalue
      split at hvalue
      · rename_i hc
        have hlower : 97 ≤ c.toNat ∧ c.toNat ≤ 102 := hc
        cases hvalue
        omega
      · split at hvalue
        · rename_i hc
          have hupper : 65 ≤ c.toNat ∧ c.toNat ≤ 70 := hc
          cases hvalue
          omega
        · cases hvalue
  exact ⟨hbounds.1, hvalue, hbounds.2⟩

/-- The value of a digit is its place among the hexadecimal digits, in either case. -/
theorem idxOf_of_value? {base : Nat} {c : Char} {d : Nat} (h : Digit.value? base c = some d) :
    hexadecimalDigits.idxOf c.toLower = d := by
  have hall : ∀ n : Fin 128, ∀ d ∈ Digit.value? 16 (Char.ofNat n),
      hexadecimalDigits.idxOf (Char.ofNat n).toLower = d := by
    decide +kernel
  obtain ⟨hc, hd⟩ := bounds_of_value? h
  have hplace := hall ⟨c.toNat, hc⟩ d
  simp only [Char.ofNat_toNat] at hplace
  exact hplace hd

theorem isDigit_of_mem_moreDigits {base : Nat} {cs : List Char} (h : IsMoreDigits base cs)
    {c : Char} (hc : c ∈ cs) : Digit.isDigit base c = true ∨ c = '_' := by
  induction h with
  | nil => cases hc
  | digit hd _ ih =>
      rcases List.mem_cons.mp hc with rfl | hc
      · exact .inl hd
      · exact ih hc
  | underscore hd _ ih =>
      rcases List.mem_cons.mp hc with rfl | hc
      · exact .inr rfl
      · rcases List.mem_cons.mp hc with rfl | hc
        · exact .inl hd
        · exact ih hc

theorem isDigit_of_mem_filter {base : Nat} {cs : List Char} (h : IsMoreDigits base cs) :
    ∀ c ∈ cs.filter (· != '_'), Digit.isDigit base c = true := by
  intro c hc
  obtain ⟨hc, hne⟩ := List.mem_filter.mp hc
  rcases isDigit_of_mem_moreDigits h hc with hdigit | rfl
  · exact hdigit
  · cases hne

theorem isMoreDigits_of_isDigits {base : Nat} {cs : List Char} (h : IsDigits base cs) :
    IsMoreDigits base cs := by
  obtain ⟨c, cs, rfl, hc, hcs⟩ := h
  exact .digit hc hcs

/-- Adding up digits from the first one on gives the sum over their places. -/
theorem number_eq_positional {base : Nat} {cs : List Char} (h : IsMoreDigits base cs) :
    Digit.number base (cs.filter (· != '_')) = positional base cs := by
  rw [positional, places, Digit.number, Nat.ofDigits_eq_foldr, List.foldr_reverse, List.foldl_map]
  apply List.foldl_ext
  intro n c hc
  obtain ⟨d, hd⟩ := Option.isSome_iff_exists.mp (isDigit_of_mem_filter h c hc)
  rw [idxOf_of_value? hd, hd, Option.getD_some]
  exact Nat.add_comm _ _

/-! ## Numerals are read as the numbers that they denote -/

theorem filter_ne_nil {base : Nat} {c : Char} {cs : List Char} (h : IsMoreDigits base (c :: cs)) :
    (c :: cs).filter (· != '_') ≠ [] := by
  have hne {d : Char} (hd : Digit.isDigit base d = true) : d ≠ '_' := by
    rintro rfl
    simp [Token.isDigit_underscore] at hd
  cases h with
  | digit hc => simp [hne hc]
  | underscore hc => simp [hne hc]

/-- Behind a zero, a letter tells the radix. Without such a letter it is eight. -/
theorem radix_zero_cons (c : Char) (cs : List Char) : radix ('0' :: c :: cs) =
    ((Token.radix? c).map (·, cs)).getD (8, c :: cs) := by
  unfold Token.radix?
  split
  all_goals try rfl
  unfold radix
  split <;> simp_all

theorem exists_radix {cs : List Char} {n : Nat} (h : DenotesUnsigned cs n) :
    ∃ base c digits, radix cs = (base, c :: digits) ∧ 0 < base ∧ IsMoreDigits base (c :: digits) ∧
      n = positional base (c :: digits) := by
  cases h with
  | decimal hc h =>
      exact ⟨10, _, _, radix_of_ne_zero hc _, by decide, isMoreDigits_of_isDigits h, rfl⟩
  | zero => exact ⟨10, '0', [], rfl, by decide, .digit rfl .nil, rfl⟩
  | @octal c cs h =>
      have hnone : Token.radix? c = none := by
        apply Option.eq_none_iff_forall_ne_some.mpr
        intro base hbase
        have hnot := Token.not_digit_of_radix? hbase
        simpa [hnot] using h.head
      refine ⟨8, c, cs, ?_, by decide, h, rfl⟩
      rw [radix_zero_cons, hnone]
      rfl
  | @based letter base _ hletter h =>
      obtain ⟨c, cs, rfl, hc, hcs⟩ := h
      have hpos : ∀ a ∈ bases, 0 < a.2 := by decide
      refine ⟨base, c, cs, ?_, hpos _ hletter, .digit hc hcs, rfl⟩
      rw [radix_zero_cons, mem_bases_iff.mp hletter]
      rfl

theorem DenotesUnsigned.isUnsigned {cs : List Char} {n : Nat} (h : DenotesUnsigned cs n) :
    IsUnsigned cs := by
  cases h with
  | decimal hc h => exact .decimal hc h
  | zero => exact .octal .nil
  | octal h => exact .octal h
  | based hletter h => exact .radix ⟨_, _, _, rfl, mem_bases_iff.mp hletter, h⟩

theorem magnitude_of_denotesUnsigned {cs : List Char} {n : Nat} (h : DenotesUnsigned cs n) :
    magnitude cs = n := by
  obtain ⟨base, c, digits, hradix, _, hdigits, rfl⟩ := exists_radix h
  rw [magnitude, hradix]
  exact number_eq_positional hdigits

theorem value_of_denotes {l : List Char} {n : Int} (h : Denotes l n) : value l = n := by
  cases h with
  | unsigned h =>
      have hmagnitude := magnitude_of_denotesUnsigned h
      cases l with
      | nil => cases h
      | cons c cs =>
          have hc := h.isUnsigned.isDigit
          rw [isDigit_ten] at hc
          rw [value_of_isDigit hc, hmagnitude]
  | plus h => rw [value, magnitude_of_denotesUnsigned h]
  | minus h => rw [value, magnitude_of_denotesUnsigned h]

/-! ## Numbers of 64 bits -/

/-- The number itself, if it is one of 64 bits. -/
def narrow? (n : Int) : Option Int64 :=
  if Int64.minValue.toInt ≤ n ∧ n ≤ Int64.maxValue.toInt then some (.ofInt n) else none

theorem narrow?_eq_some_iff {n : Int} {v : Int64} : narrow? n = some v ↔ v.toInt = n := by
  constructor
  · intro h
    rw [narrow?] at h
    split at h
    · rename_i hn
      cases h
      apply Int64.toInt_ofInt_of_le
      · exact hn.1
      · exact Int.lt_add_one_of_le hn.2
    · cases h
  · rintro rfl
    rw [narrow?, if_pos ⟨v.minValue_le_toInt, v.toInt_le⟩, Int64.ofInt_toInt]

theorem isSome_narrow?_iff {n : Int} :
    (narrow? n).isSome = true ↔ -2 ^ 63 ≤ n ∧ n ≤ 2 ^ 63 - 1 := by
  rw [narrow?, Option.isSome_ite]
  rfl

theorem value?_eq_narrow? (l : List Char) : value? l = narrow? (value l) := rfl

/-! ## Adding up in 128 bits -/

/-- The largest number of 128 bits one of which is the sign. -/
def maxInt128 : Nat := 2 ^ 127 - 1

/-- The number with one more digit behind it, if it is one of 128 bits. -/
def push? (base n : Nat) (c : Char) : Option Nat :=
  (Digit.value? base c).bind fun d =>
    if base * n + d ≤ maxInt128 then some (base * n + d) else none

/-- The number with the given digits, if there are any and no number on the way is too large. -/
def accumulate? (base : Nat) : List Char → Option Nat
  | [] => none
  | c :: cs => (c :: cs).foldlM (push? base) 0

def magnitudeWithin128? (cs : List Char) : Option Nat :=
  let (base, digits) := radix cs
  accumulate? base (digits.filter (· != '_'))

/-- The number of 64 bits that a numeral denotes, computed with numbers of 128 bits. -/
def valueWithin128? : List Char → Option Int64
  | '-' :: cs => (magnitudeWithin128? cs).bind fun n => narrow? (-n)
  | '+' :: cs => (magnitudeWithin128? cs).bind fun n => narrow? n
  | cs => (magnitudeWithin128? cs).bind fun n => narrow? n

theorem le_foldl_digits {base : Nat} (hbase : 0 < base) (cs : List Char) (n : Nat) :
    n ≤ cs.foldl (fun n d => base * n + (Digit.value? base d).getD 0) n := by
  induction cs generalizing n with
  | nil => exact Nat.le_refl n
  | cons c cs ih =>
      rw [List.foldl_cons]
      have hmul : n ≤ base * n := Nat.le_mul_of_pos_left n hbase
      exact Nat.le_trans (Nat.le_trans hmul (Nat.le_add_right _ _)) (ih _)

/-- Numbers only grow while digits are added up, so that one that is too large remains so. -/
theorem foldlM_push? {base : Nat} (hbase : 0 < base) {cs : List Char}
    (hcs : ∀ c ∈ cs, Digit.isDigit base c = true) {n : Nat} (hn : n ≤ maxInt128) :
    cs.foldlM (push? base) n =
      Option.guard (· ≤ maxInt128)
        (cs.foldl (fun n d => base * n + (Digit.value? base d).getD 0) n) := by
  induction cs generalizing n with
  | nil => simp [Option.guard, hn]
  | cons c cs ih =>
      obtain ⟨d, hd⟩ := Option.isSome_iff_exists.mp (hcs c List.mem_cons_self)
      have htail := fun e he => hcs e (List.mem_cons_of_mem c he)
      rw [List.foldlM_cons, List.foldl_cons, push?, hd, Option.bind_some, Option.getD_some]
      by_cases hle : base * n + d ≤ maxInt128
      · rw [if_pos hle]
        exact ih htail hle
      · have hgrow := le_foldl_digits hbase cs (base * n + d)
        rw [if_neg hle, Option.guard_eq_none_iff.mpr (by simp; omega)]
        rfl

theorem magnitudeWithin128?_of_denotesUnsigned {cs : List Char} {n : Nat}
    (h : DenotesUnsigned cs n) : magnitudeWithin128? cs = Option.guard (· ≤ maxInt128) n := by
  obtain ⟨base, c, digits, hradix, hbase, hdigits, rfl⟩ := exists_radix h
  have hall := isDigit_of_mem_filter hdigits
  have hfold : ((c :: digits).filter (· != '_')).foldlM (push? base) 0 =
      Option.guard (· ≤ maxInt128) (positional base (c :: digits)) := by
    rw [foldlM_push? hbase hall (Nat.zero_le _), ← number_eq_positional hdigits]
    rfl
  rw [magnitudeWithin128?, hradix, ← hfold]
  cases hfilter : (c :: digits).filter (· != '_') with
  | nil => exact absurd hfilter (filter_ne_nil hdigits)
  | cons d ds => simp only [accumulate?, hfilter]

/-- A number that is too large for 128 bits is too large for 64, with either sign. -/
theorem bind_narrow? {f : Nat → Int} (hf : ∀ n, (f n).natAbs = n) (n : Nat) :
    (Option.guard (· ≤ maxInt128) n).bind (fun n => narrow? (f n)) = narrow? (f n) := by
  by_cases hn : n ≤ maxInt128
  · have hsome : Option.guard (· ≤ maxInt128) n = some n := by simpa [Option.guard] using hn
    rw [hsome, Option.bind_some]
  · have hguard : Option.guard (· ≤ maxInt128) n = none := by simpa [Option.guard] using hn
    have hnone : narrow? (f n) = none := by
      rw [← Option.not_isSome_iff_eq_none, isSome_narrow?_iff]
      have hlarge : 2 ^ 127 - 1 < n := Nat.lt_of_not_le hn
      have habs := hf n
      omega
    rw [hguard, hnone, Option.bind_none]

theorem valueWithin128?_of_denotes {l : List Char} {n : Int} (h : Denotes l n) :
    valueWithin128? l = narrow? n := by
  cases h with
  | @unsigned _ n h =>
      have hmagnitude := magnitudeWithin128?_of_denotesUnsigned h
      cases l with
      | nil => cases h
      | cons c cs =>
          have hc := h.isUnsigned.isDigit
          have hvalue : valueWithin128? (c :: cs) =
              (magnitudeWithin128? (c :: cs)).bind fun n => narrow? n := by
            unfold valueWithin128?
            split
            · rename_i heq
              cases heq
              exact absurd hc (by decide)
            · rename_i heq
              cases heq
              exact absurd hc (by decide)
            · rfl
          rw [hvalue, hmagnitude]
          exact bind_narrow? Int.natAbs_natCast n
  | @plus _ n h =>
      rw [valueWithin128?, magnitudeWithin128?_of_denotesUnsigned h]
      exact bind_narrow? Int.natAbs_natCast n
  | @minus _ n h =>
      rw [valueWithin128?, magnitudeWithin128?_of_denotesUnsigned h]
      exact bind_narrow? (f := fun n => -(n : Int)) (fun n => by simp) n

/-! ## Integer tokens -/

/-- A text that is one integer token as a whole, and so every token, denotes one number. It is read
as this number if that has 64 bits and else not at all, and numbers of 128 bits are enough to read
it. Every number of 64 bits is written as a token that is read as this number. -/
theorem integer_tokens_denote :
    (∀ l, Token.integer? l = some l → ∃ n : Int,
      Denotes l n ∧ (∀ m, Denotes l m → m = n) ∧
      ((value? l).isSome = true ↔ -2 ^ 63 ≤ n ∧ n ≤ 2 ^ 63 - 1) ∧
      (∀ v, value? l = some v ↔ v.toInt = n) ∧
      valueWithin128? l = value? l) ∧
    (∀ (c c' : Cursor) (request : Cursor.Request) (t : Token),
      c.answer request = .ok (some (t, c')) → t.kind = .integer →
      Token.integer? t.lexeme = some t.lexeme) ∧
    ∀ (v : Int64) (offset : Nat),
      Cursor.next ⟨offset, ofInt64 v⟩ = .ok (some (⟨.integer, ofInt64 v, offset⟩,
        ⟨offset + Cursor.utf8Length (ofInt64 v), []⟩)) ∧
      value? (ofInt64 v) = some v := by
  refine ⟨fun l hl => ?_, fun c c' request t h hk => ?_, fun v offset => ⟨?_, value?_ofInt64 v⟩⟩
  · obtain ⟨n, hn⟩ := exists_denotes ((Token.isLongest_integer l).of_eq_some hl).1
    have hvalue : value? l = narrow? n := by
      rw [value?_eq_narrow?, value_of_denotes hn]
    refine ⟨n, hn, fun m hm => ?_, ?_, fun v => ?_, ?_⟩
    · rw [← value_of_denotes hm, value_of_denotes hn]
    · rw [hvalue, isSome_narrow?_iff]
    · rw [hvalue, narrow?_eq_some_iff]
    · rw [hvalue, valueWithin128?_of_denotes hn]
  · obtain ⟨L, hword⟩ := Cursor.exists_word_of_answer h (by simp [hk])
    rw [hk] at hword
    exact (Token.isLongest_integer t.lexeme).eq_some_self hword.isInteger
  · have hinteger : Token.integer? (ofInt64 v ++ []) = some (ofInt64 v) :=
      Token.integer?_append v nofun
    have hnext := Cursor.next_of_lexeme? (Token.lexeme?_of_integer? hinteger) offset
    rwa [List.append_nil] at hnext

/-- The least number of 64 bits is read in hexadecimal, and the one below it is not. -/
theorem hexadecimal_least_number_denotes :
    (Token.integer? "-0x8000_0000_0000_0000".toList = some "-0x8000_0000_0000_0000".toList ∧
      Denotes "-0x8000_0000_0000_0000".toList (-2 ^ 63)) ∧
    (Cursor.answer ⟨3, "-0x8000000000000001]".toList⟩ .token =
        .ok (some (⟨.integer, "-0x8000000000000001".toList, 3⟩, ⟨22, [']']⟩)) ∧
      ∃ n, Denotes "-0x8000000000000001".toList n ∧ ¬ (-2 ^ 63 ≤ n ∧ n ≤ 2 ^ 63 - 1)) := by
  have hleast : Token.integer? "-0x8000_0000_0000_0000".toList =
      some "-0x8000_0000_0000_0000".toList := by decide +kernel
  have hvalue : value? "-0x8000_0000_0000_0000".toList = some Int64.minValue := by decide +kernel
  have htoken : Cursor.answer ⟨3, "-0x8000000000000001]".toList⟩ .token =
      .ok (some (⟨.integer, "-0x8000000000000001".toList, 3⟩, ⟨22, [']']⟩)) := by decide +kernel
  have hnone : value? "-0x8000000000000001".toList = none := by decide +kernel
  obtain ⟨hdenotes, htokens, _⟩ := integer_tokens_denote
  obtain ⟨n, hn, _, _, hread, _⟩ := hdenotes _ hleast
  obtain ⟨m, hm, _, hsome, _⟩ := hdenotes _ (htokens _ _ _ _ htoken rfl)
  have hn' : Int64.minValue.toInt = n := (hread _).mp hvalue
  refine ⟨⟨hleast, ?_⟩, htoken, m, hm, ?_⟩
  · rw [← hn'] at hn
    exact hn
  · rw [← hsome, hnone]
    decide

end TreePattern.Numeral
