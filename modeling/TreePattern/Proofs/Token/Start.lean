import TreePattern.Proofs.Text.Numeral
import TreePattern.Proofs.Token.Lexeme

/-! The first character of a lexeme. Apart from the plus sign, which is an operator and begins
integers, it tells which lexemes there can be. -/

namespace TreePattern.Token

/-- What a text may begin with, as far as its first character tells. -/
inductive Start where
  | plus
  | number
  | className
  | word
  | symbol
  | string
  | regexp
  | operator
  deriving DecidableEq

def start (c : Char) : Start :=
  if c = '+' then .plus
  else if c = '-' ∨ Digit.isDigit 10 c = true then .number
  else if c.isUpper then .className
  else if c.isLower || c == '_' then .word
  else if c = ':' then .symbol
  else if c = '\'' ∨ c = '"' then .string
  else if c = '/' then .regexp
  else .operator

/-- The lexeme that is no operator. -/
def scanner? : Start → List Char → Option (Kind × List Char)
  | .plus, cs | .number, cs => (integer? cs).map (.integer, ·)
  | .className, cs => (className? cs).map (.className, ·)
  | .word, cs => (variableName? cs).map fun l => ((Kind.keyword? l).getD .variableName, l)
  | .symbol, cs => (symbol? cs).map (.symbol, ·)
  | .string, cs => (string? cs).map (.string, ·)
  | .regexp, cs => (regexp? cs).map (.regexp, ·)
  | .operator, _ => none

theorem isUpper_iff {c : Char} : c.isUpper = true ↔ 65 ≤ c.toNat ∧ c.toNat ≤ 90 := by
  change decide (65 ≤ c.val ∧ c.val ≤ 90) = true ↔ _
  simp [UInt32.le_iff_toNat_le, ← Char.toNat_val]

theorem isLower_iff {c : Char} : c.isLower = true ↔ 97 ≤ c.toNat ∧ c.toNat ≤ 122 := by
  change (decide (97 ≤ c.val) && decide (c.val ≤ 122)) = true ↔ _
  simp [UInt32.le_iff_toNat_le, ← Char.toNat_val]

theorem start_of_isUpper {c : Char} (h : c.isUpper = true) : start c = .className := by
  rw [isUpper_iff] at h
  have hsign : c ≠ '+' ∧ c ≠ '-' := by
    constructor <;> rintro rfl <;> exact absurd h (by decide)
  have hdigit : ¬ Digit.isDigit 10 c = true := by
    rw [Numeral.isDigit_ten, Numeral.isDigit_iff]
    omega
  simp [start, hsign, hdigit, isUpper_iff, h]

theorem start_of_word {c : Char} (h : (c.isLower || c == '_') = true) : start c = .word := by
  rcases Bool.or_eq_true_iff.mp h with hlower | hunderscore
  · have hbounds := isLower_iff.mp hlower
    have hsign : c ≠ '+' ∧ c ≠ '-' := by
      constructor <;> rintro rfl <;> exact absurd hlower (by decide)
    have hdigit : ¬ Digit.isDigit 10 c = true := by
      rw [Numeral.isDigit_ten, Numeral.isDigit_iff]
      omega
    have hupper : ¬ c.isUpper = true := by
      rw [isUpper_iff]
      omega
    simp [start, hsign, hdigit, hupper, hlower]
  · obtain rfl := eq_of_beq hunderscore
    rfl

theorem start_of_digit {c : Char} (h : Digit.isDigit 10 c = true) : start c = .number := by
  have hplus : c ≠ '+' := by
    rintro rfl
    exact absurd h (by decide)
  simp [start, hplus, h]

theorem start_of_isIntegerStart {c : Char} (h : isIntegerStart c = true) :
    start c = .plus ∨ start c = .number := by
  simp only [isIntegerStart, Bool.or_eq_true, beq_iff_eq] at h
  rcases h with (rfl | rfl) | hdigit
  · exact .inl rfl
  · exact .inr rfl
  · exact .inr (start_of_digit hdigit)

theorem start_of_operator {c : Char} {cs l : List Char} {k : Kind} (h : (l, k) ∈ operators)
    (hl : l <+: c :: cs) : start c = .operator ∨ start c = .plus ∧ l = ['+'] := by
  have hall : ∀ a ∈ operators, a.1 ≠ [] ∧
      (start (a.1.headD ' ') = .operator ∨ start (a.1.headD ' ') = .plus ∧ a.1 = ['+']) := by
    decide
  obtain ⟨hne, hstart⟩ := hall _ h
  obtain ⟨d, tail, rfl⟩ := List.exists_cons_of_ne_nil hne
  obtain ⟨rfl, _⟩ := List.cons_prefix_cons.mp hl
  exact hstart

theorem mem_lexemes_cons {c : Char} {cs l : List Char} {k : Kind} :
    (k, l) ∈ lexemes (c :: cs) ↔
      (l, k) ∈ operators ∧ l <+: c :: cs ∨ scanner? (start c) (c :: cs) = some (k, l) := by
  have hbegins {isFirst : Char → Bool} {l : List Char} (h : Begins isFirst (c :: cs) l) :
      isFirst c = true := by
    obtain ⟨_, _, _, _, heq, _, hc⟩ := h
    cases heq
    exact hc
  rw [mem_lexemes]
  constructor
  · rintro (h | ⟨h, rfl⟩ | ⟨h, rfl⟩ | ⟨h, rfl⟩ | ⟨h, rfl⟩ | ⟨h, rfl⟩ | ⟨h, rfl⟩)
    · exact .inl h
    · rw [start_of_word (hbegins (begins_variableName h)), scanner?, h]
      exact .inr rfl
    · rw [start_of_isUpper (hbegins (begins_className h)), scanner?, h]
      exact .inr rfl
    · have hc := hbegins (begins_symbol h)
      obtain rfl := eq_of_beq hc
      exact .inr (Option.map_eq_some_iff.mpr ⟨l, h, rfl⟩)
    · rcases start_of_isIntegerStart (hbegins (begins_integer h)) with hstart | hstart
      all_goals
        rw [hstart, scanner?, h]
        exact .inr rfl
    · rcases Bool.or_eq_true_iff.mp (hbegins (begins_string h)) with hc | hc
      all_goals
        obtain rfl := eq_of_beq hc
        exact .inr (Option.map_eq_some_iff.mpr ⟨l, h, rfl⟩)
    · have hc := hbegins (begins_regexp h)
      obtain rfl := eq_of_beq hc
      exact .inr (Option.map_eq_some_iff.mpr ⟨l, h, rfl⟩)
  · rintro (h | h)
    · exact .inl h
    · cases hstart : start c with
      | operator =>
          rw [hstart] at h
          cases h
      | _ =>
          rw [hstart] at h
          obtain ⟨l, hl, heq⟩ := Option.map_eq_some_iff.mp h
          cases heq
          simp [hl]

theorem lexeme?_of_scanner? {c : Char} {cs l : List Char} {k : Kind}
    (h : scanner? (start c) (c :: cs) = some (k, l)) : lexeme? (c :: cs) = some (k, l) := by
  apply longest_eq_some (mem_lexemes_cons.mpr (.inr h))
  rintro ⟨k', l'⟩ hmem hne
  rcases mem_lexemes_cons.mp hmem with ⟨hop, hl⟩ | h'
  · rcases start_of_operator hop hl with hstart | ⟨hstart, rfl⟩
    · rw [hstart] at h
      cases h
    · obtain ⟨rfl, _⟩ := List.cons_prefix_cons.mp hl
      obtain ⟨l, hinteger, heq⟩ := Option.map_eq_some_iff.mp h
      obtain ⟨digits, hdigits, rfl⟩ := Option.map_eq_some_iff.mp hinteger
      cases heq
      have hpos := List.length_pos_of_ne_nil (begins_unsigned hdigits).ne_nil
      simp only [List.length_cons, List.length_nil]
      omega
  · exact absurd (Option.some.inj (h'.symm.trans h)) hne

end TreePattern.Token
