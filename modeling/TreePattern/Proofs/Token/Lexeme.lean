import Mathlib.Data.List.Induction
import Mathlib.Data.List.ReduceOption
import TreePattern.Token.Lexer

/-! What the lexemes of each kind have in common: they are beginnings of the text, they are not
empty, and they do not begin with white space. -/

namespace TreePattern.Token

/-! ## The longest of several -/

section Longest

variable {α : Type} {size : α → Nat}

theorem longer_eq_some {x? y? : Option α} {z : α} (h : longer size x? y? = some z) :
    x? = some z ∨ y? = some z := by
  cases x? with
  | none => exact .inr h
  | some x =>
      cases y? with
      | none => exact .inl h
      | some y =>
          simp only [longer] at h
          split at h
          · exact .inr h
          · exact .inl h

theorem longer_none_right (x? : Option α) : longer size x? none = x? := by
  cases x? <;> rfl

theorem le_size_longer {x? y? : Option α} {z : α} (h : longer size x? y? = some z) :
    (∀ x ∈ x?, size x ≤ size z) ∧ ∀ y ∈ y?, size y ≤ size z := by
  cases x? with
  | none =>
      cases h
      exact ⟨by simp, by simp⟩
  | some x =>
      cases y? with
      | none =>
          cases h
          exact ⟨by simp, by simp⟩
      | some y =>
          simp only [longer] at h
          split at h <;> cases h <;> simp <;> omega

theorem longest_append_singleton (xs : List α) (x : α) :
    longest size (xs ++ [x]) = longer size (longest size xs) (some x) := by
  simp [longest, List.foldl_append]

theorem mem_of_longest {xs : List α} {x : α} (h : longest size xs = some x) : x ∈ xs := by
  induction xs using List.reverseRecOn generalizing x with
  | nil => cases h
  | append_singleton xs y ih =>
      rw [longest_append_singleton] at h
      rcases longer_eq_some h with h | h
      · exact List.mem_append_left _ (ih h)
      · cases h
        simp

theorem longest_eq_none {xs : List α} : longest size xs = none ↔ xs = [] := by
  constructor
  · intro h
    cases xs using List.reverseRecOn with
    | nil => rfl
    | append_singleton xs x =>
        rw [longest_append_singleton] at h
        cases hxs : longest size xs with
        | none => simp [hxs, longer] at h
        | some y =>
            simp only [hxs, longer] at h
            split at h <;> cases h
  · rintro rfl
    rfl

theorem le_size_longest {xs : List α} {x : α} (h : longest size xs = some x) :
    ∀ y ∈ xs, size y ≤ size x := by
  induction xs using List.reverseRecOn generalizing x with
  | nil => simp
  | append_singleton xs z ih =>
      rw [longest_append_singleton] at h
      obtain ⟨hleft, hright⟩ := le_size_longer h
      intro y hy
      rcases List.mem_append.mp hy with hy | hy
      · cases hlongest : longest size xs with
        | none =>
            rw [longest_eq_none.mp hlongest] at hy
            cases hy
        | some w => exact Nat.le_trans (ih hlongest y hy) (hleft w hlongest)
      · exact hright y (by simpa [eq_comm] using hy)

/-- An element that is longer than all others is the longest. -/
theorem longest_eq_some {xs : List α} {x : α} (hx : x ∈ xs)
    (h : ∀ y ∈ xs, y ≠ x → size y < size x) : longest size xs = some x := by
  cases hlongest : longest size xs with
  | none =>
      rw [longest_eq_none] at hlongest
      simp [hlongest] at hx
  | some y =>
      by_cases hy : y = x
      · rw [hy]
      · have hlt := h y (mem_of_longest hlongest) hy
        have hle := le_size_longest hlongest x hx
        omega

end Longest

/-! ## Beginnings -/

/-- `l` is a beginning of `cs` with a first character of the given class. -/
def Begins (isFirst : Char → Bool) (cs l : List Char) : Prop :=
  ∃ c tail rest, l = c :: tail ∧ cs = c :: rest ∧ tail <+: rest ∧ isFirst c = true

namespace Begins

variable {isFirst isFirst' : Char → Bool} {cs l : List Char}

theorem isPrefix (h : Begins isFirst cs l) : l <+: cs := by
  obtain ⟨c, tail, rest, rfl, rfl, htail, _⟩ := h
  exact (List.prefix_cons_inj c).mpr htail

theorem ne_nil (h : Begins isFirst cs l) : l ≠ [] := by
  obtain ⟨c, tail, rest, rfl, _⟩ := h
  simp

theorem mono (h : Begins isFirst cs l) (himp : ∀ c, isFirst c = true → isFirst' c = true) :
    Begins isFirst' cs l := by
  obtain ⟨c, tail, rest, hl, hcs, htail, hc⟩ := h
  exact ⟨c, tail, rest, hl, hcs, htail, himp c hc⟩

end Begins

theorem begins_variableName {cs l : List Char} (h : variableName? cs = some l) :
    Begins (fun c => c.isLower || c == '_') cs l := by
  cases cs with
  | nil => cases h
  | cons c cs =>
      simp only [variableName?, Option.ite_none_right_eq_some, Option.some.injEq] at h
      obtain ⟨hc, rfl⟩ := h
      exact ⟨c, _, cs, rfl, rfl, List.takeWhile_prefix _, hc⟩

theorem begins_className {cs l : List Char} (h : className? cs = some l) :
    Begins Char.isUpper cs l := by
  cases cs with
  | nil => cases h
  | cons c cs =>
      simp only [className?, Option.ite_none_right_eq_some, Option.some.injEq] at h
      obtain ⟨hc, rfl⟩ := h
      exact ⟨c, _, cs, rfl, rfl, List.takeWhile_prefix _, hc⟩

theorem isPrefix_nameMark (cs : List Char) : nameMark cs <+: cs := by
  unfold nameMark
  split <;> simp

theorem begins_identifier {cs l : List Char} (h : identifier? cs = some l) :
    Begins isNameStart cs l := by
  cases cs with
  | nil => cases h
  | cons c cs =>
      simp only [identifier?, Option.ite_none_right_eq_some, Option.some.injEq] at h
      obtain ⟨hc, rfl⟩ := h
      refine ⟨c, _, cs, rfl, rfl, ?_, hc⟩
      conv => rhs; rw [← List.takeWhile_append_dropWhile (p := isNameChar) (l := cs)]
      exact (List.prefix_append_right_inj _).mpr (isPrefix_nameMark _)

theorem operatorName?_eq_some {names : List (List Char)} {cs l : List Char}
    (h : operatorName? names cs = some l) : l ∈ names ∧ l <+: cs := by
  simpa using mem_of_longest h

theorem begins_of_mem_operatorNames {cs l : List Char} (hl : l ∈ operatorNames) (h : l <+: cs) :
    Begins (fun c => !isNameStart c && !isBlank c) cs l := by
  have hfirst : ∀ l ∈ operatorNames, l.head?.any fun c => !isNameStart c && !isBlank c := by decide
  obtain ⟨rest, rfl⟩ := h
  cases l with
  | nil => simpa using hfirst [] hl
  | cons c tail => exact ⟨c, tail, tail ++ rest, rfl, rfl, by simp, by simpa using hfirst _ hl⟩

theorem begins_symbol {cs l : List Char} (h : symbol? cs = some l) : Begins (· == ':') cs l := by
  unfold symbol? at h
  split at h
  · rename_i cs
    obtain ⟨body, hbody, rfl⟩ := Option.map_eq_some_iff.mp h
    refine ⟨':', body, cs, rfl, rfl, ?_, rfl⟩
    rcases longer_eq_some hbody with hbody | hbody
    · exact (begins_identifier hbody).isPrefix
    · exact (operatorName?_eq_some hbody).2
  · cases h

theorem isDigit_underscore (radix : Nat) : Digit.isDigit radix '_' = false := rfl

theorem moreDigits_cons {radix : Nat} {c : Char} (h : Digit.isDigit radix c = true)
    (cs : List Char) : moreDigits radix (c :: cs) = c :: moreDigits radix cs := by
  rw [moreDigits.eq_def]
  simp [h]

theorem moreDigits_underscore {radix : Nat} {d : Char} (h : Digit.isDigit radix d = true)
    (cs : List Char) : moreDigits radix ('_' :: d :: cs) = '_' :: moreDigits radix (d :: cs) := by
  rw [moreDigits.eq_def]
  simp [h, isDigit_underscore]

theorem moreDigits_stop {radix : Nat} {c : Char} {cs : List Char}
    (hc : Digit.isDigit radix c = false)
    (h : c = '_' → ∀ d ∈ cs.head?, Digit.isDigit radix d = false) :
    moreDigits radix (c :: cs) = [] := by
  rw [moreDigits.eq_def]
  cases cs with
  | nil => simp [hc]
  | cons d cs =>
      by_cases hu : c = '_'
      · simp [hu, isDigit_underscore, h hu d (by simp)]
      · simp only [hc, Bool.false_eq_true, if_false]
        split
        · exact absurd rfl hu
        · rfl

theorem isPrefix_moreDigits (radix : Nat) (cs : List Char) : moreDigits radix cs <+: cs := by
  induction cs using moreDigits.induct radix with
  | case1 => simp [moreDigits]
  | case2 c cs hc ih =>
      rw [moreDigits_cons hc]
      exact (List.prefix_cons_inj c).mpr ih
  | case3 d cs hd _ ih =>
      rw [moreDigits_underscore hd]
      exact (List.prefix_cons_inj '_').mpr ih
  | case4 d cs hd _ =>
      rw [moreDigits_stop (isDigit_underscore radix) (by simpa using hd)]
      exact List.nil_prefix
  | case5 c cs hc h =>
      rw [moreDigits_stop (by simpa using hc) fun hu d hd => ?_]
      · exact List.nil_prefix
      · obtain ⟨rest, rfl⟩ := List.head?_eq_some_iff.mp hd
        exact (h d rest hu rfl).elim

theorem begins_digits {radix : Nat} {cs l : List Char} (h : digits? radix cs = some l) :
    Begins (Digit.isDigit radix) cs l := by
  cases cs with
  | nil => cases h
  | cons c cs =>
      simp only [digits?, Option.ite_none_right_eq_some, Option.some.injEq] at h
      obtain ⟨hc, rfl⟩ := h
      exact ⟨c, _, cs, rfl, rfl, isPrefix_moreDigits radix cs, hc⟩

theorem begins_unsigned {cs l : List Char} (h : unsigned? cs = some l) :
    Begins (Digit.isDigit 10) cs l := by
  unfold unsigned? at h
  split at h
  · rename_i cs
    have hplain : Begins (Digit.isDigit 10) ('0' :: cs) ('0' :: moreDigits 8 cs) :=
      ⟨'0', _, cs, rfl, rfl, isPrefix_moreDigits 8 cs, rfl⟩
    split at h
    · cases h
      exact hplain
    · rename_i c rest
      split at h
      · rename_i ds hds
        obtain ⟨radix, _, hds⟩ := Option.bind_eq_some_iff.mp hds
        cases h
        refine ⟨'0', _, _, rfl, rfl, ?_, rfl⟩
        exact (List.prefix_cons_inj c).mpr (begins_digits hds).isPrefix
      · cases h
        exact hplain
  · exact begins_digits h

/-- A sign or a digit. -/
def isIntegerStart (c : Char) : Bool := c == '+' || c == '-' || Digit.isDigit 10 c

theorem begins_integer {cs l : List Char} (h : integer? cs = some l) :
    Begins isIntegerStart cs l := by
  unfold integer? at h
  split at h
  · obtain ⟨body, hbody, rfl⟩ := Option.map_eq_some_iff.mp h
    exact ⟨'+', body, _, rfl, rfl, (begins_unsigned hbody).isPrefix, rfl⟩
  · obtain ⟨body, hbody, rfl⟩ := Option.map_eq_some_iff.mp h
    exact ⟨'-', body, _, rfl, rfl, (begins_unsigned hbody).isPrefix, rfl⟩
  · exact (begins_unsigned h).mono fun c hc => by simp [isIntegerStart, hc]

/-- A text in which every quote has a backslash of its own, and which no such backslash ends. -/
inductive IsBody (quote : Char) : List Char → Prop where
  | nil : IsBody quote []
  | pair {cs} (c) (h : IsBody quote cs) : IsBody quote ('\\' :: c :: cs)
  | cons {c cs} (hc : c ≠ '\\') (hquote : c ≠ quote) (h : IsBody quote cs) : IsBody quote (c :: cs)

/-- A quoted text ends at the first quote without a backslash of its own. -/
theorem quoted?_eq_some_iff {quote : Char} (hquote : quote ≠ '\\') {cs l : List Char} :
    quoted? quote cs = some l ↔
      ∃ body rest, IsBody quote body ∧ l = body ++ [quote] ∧ cs = body ++ quote :: rest := by
  constructor
  · intro h
    fun_induction quoted? quote cs generalizing l with
    | case1 => cases h
    | case2 cs =>
        cases h
        exact ⟨[], cs, .nil, rfl, rfl⟩
    | case3 => cases h
    | case4 d cs hq ih =>
        obtain ⟨l', hl', rfl⟩ := Option.map_eq_some_iff.mp h
        obtain ⟨body, rest, hbody, rfl, rfl⟩ := ih hl'
        exact ⟨'\\' :: d :: body, rest, .pair d hbody, rfl, rfl⟩
    | case5 c cs hq hc ih =>
        obtain ⟨l', hl', rfl⟩ := Option.map_eq_some_iff.mp h
        obtain ⟨body, rest, hbody, rfl, rfl⟩ := ih hl'
        exact ⟨c :: body, rest, .cons hc hq hbody, rfl, rfl⟩
  · rintro ⟨body, rest, hbody, rfl, rfl⟩
    induction hbody with
    | nil =>
        rw [quoted?.eq_def]
        simp
    | pair c _ ih => simp [quoted?, hquote.symm, ih]
    | cons hc hne _ ih =>
        rw [quoted?.eq_def]
        simp [hc, hne, ih]

theorem isPrefix_quoted {quote : Char} (hquote : quote ≠ '\\') {cs l : List Char}
    (h : quoted? quote cs = some l) : l <+: cs := by
  obtain ⟨body, rest, _, rfl, rfl⟩ := (quoted?_eq_some_iff hquote).mp h
  exact ⟨rest, by simp⟩

theorem begins_string {cs l : List Char} (h : string? cs = some l) :
    Begins (fun c => c == '\'' || c == '"') cs l := by
  unfold string? at h
  split at h
  · obtain ⟨body, hbody, rfl⟩ := Option.map_eq_some_iff.mp h
    exact ⟨'\'', body, _, rfl, rfl, isPrefix_quoted (by decide) hbody, rfl⟩
  · obtain ⟨body, hbody, rfl⟩ := Option.map_eq_some_iff.mp h
    exact ⟨'"', body, _, rfl, rfl, isPrefix_quoted (by decide) hbody, rfl⟩
  · cases h

theorem begins_regexp {cs l : List Char} (h : regexp? cs = some l) : Begins (· == '/') cs l := by
  unfold regexp? at h
  split at h
  · rename_i cs
    obtain ⟨body, hbody, rfl⟩ := Option.map_eq_some_iff.mp h
    refine ⟨'/', _, cs, rfl, rfl, ?_, rfl⟩
    obtain ⟨rest, rfl⟩ := isPrefix_quoted (by decide) hbody
    rw [List.drop_left]
    exact (List.prefix_append_right_inj body).mpr (List.takeWhile_prefix _)
  · cases h

/-! ## The lexeme at the beginning of a text -/

theorem mem_lexemes {cs l : List Char} {k : Kind} : (k, l) ∈ lexemes cs ↔
    ((l, k) ∈ operators ∧ l <+: cs) ∨
    (variableName? cs = some l ∧ (Kind.keyword? l).getD .variableName = k) ∨
    (className? cs = some l ∧ .className = k) ∨ (symbol? cs = some l ∧ .symbol = k) ∨
    (integer? cs = some l ∧ .integer = k) ∨ (string? cs = some l ∧ .string = k) ∨
    (regexp? cs = some l ∧ .regexp = k) := by
  have hmap : ∀ (x? : Option (List Char)) (kind : List Char → Kind),
      some (k, l) = x?.map (fun x => (kind x, x)) ↔ x? = some l ∧ kind l = k := by
    intro x? kind
    cases x? with
    | none => simp
    | some x =>
        simp only [Option.map_some, Option.some.injEq, Prod.mk.injEq]
        constructor
        · rintro ⟨rfl, rfl⟩
          exact ⟨rfl, rfl⟩
        · rintro ⟨rfl, rfl⟩
          exact ⟨rfl, rfl⟩
  have hoperator : (∃ a, (a ∈ operators ∧ a.1 <+: cs) ∧ (a.2, a.1) = (k, l)) ↔
      (l, k) ∈ operators ∧ l <+: cs := by
    constructor
    · rintro ⟨a, h, heq⟩
      cases heq
      exact h
    · exact fun h => ⟨(l, k), h, rfl⟩
  simp only [lexemes, List.mem_append, List.mem_map, List.mem_filter, List.isPrefixOf_iff_prefix,
    List.reduceOption_mem_iff, List.mem_cons, List.not_mem_nil, or_false, hmap, hoperator]

theorem begins_operator {cs l : List Char} {k : Kind} (h : (l, k) ∈ operators) (hl : l <+: cs) :
    Begins (fun c => !isBlank c) cs l := by
  have hfirst : ∀ a ∈ operators, a.1.head?.any fun c => !isBlank c := by decide
  obtain ⟨rest, rfl⟩ := hl
  cases l with
  | nil => simpa using hfirst _ h
  | cons c tail => exact ⟨c, tail, tail ++ rest, rfl, rfl, by simp, by simpa using hfirst _ h⟩

theorem isNameStart_iff {c : Char} :
    isNameStart c = true ↔ c.isUpper = true ∨ (c.isLower || c == '_') = true := by
  change (c.isUpper || c.isLower || c == '_') = true ↔ _
  rw [Bool.or_assoc, Bool.or_eq_true]

theorem isNameStart_of_isUpper {c : Char} (h : c.isUpper = true) : isNameStart c = true :=
  isNameStart_iff.mpr (.inl h)

theorem isNameStart_of_word {c : Char} (h : (c.isLower || c == '_') = true) :
    isNameStart c = true :=
  isNameStart_iff.mpr (.inr h)

theorem not_isBlank_of_isNameStart {c : Char} (h : isNameStart c = true) : isBlank c = false := by
  by_contra hblank
  simp only [isBlank, Bool.not_eq_false, Bool.or_eq_true, beq_iff_eq] at hblank
  rcases hblank with ((rfl | rfl) | rfl) | rfl <;> revert h <;> decide

theorem not_isBlank_of_isIntegerStart {c : Char} (h : isIntegerStart c = true) :
    isBlank c = false := by
  by_contra hblank
  simp only [isBlank, Bool.not_eq_false, Bool.or_eq_true, beq_iff_eq] at hblank
  rcases hblank with ((rfl | rfl) | rfl) | rfl <;> revert h <;> decide

theorem begins_lexeme {cs l : List Char} {k : Kind} (h : lexeme? cs = some (k, l)) :
    Begins (fun c => !isBlank c) cs l := by
  rcases mem_lexemes.mp (mem_of_longest h) with ⟨hop, hl⟩ | ⟨hl, _⟩ | ⟨hl, _⟩ | ⟨hl, _⟩ | ⟨hl, _⟩ |
    ⟨hl, _⟩ | ⟨hl, _⟩
  · exact begins_operator hop hl
  · exact (begins_variableName hl).mono fun c hc => by
      simp [not_isBlank_of_isNameStart (isNameStart_of_word hc)]
  · exact (begins_className hl).mono fun c hc => by
      simp [not_isBlank_of_isNameStart (isNameStart_of_isUpper hc)]
  · exact (begins_symbol hl).mono fun c hc => by
      obtain rfl := eq_of_beq hc
      rfl
  · exact (begins_integer hl).mono fun c hc => by simp [not_isBlank_of_isIntegerStart hc]
  · apply (begins_string hl).mono
    intro c hc
    rcases Bool.or_eq_true_iff.mp hc with hc | hc <;> obtain rfl := eq_of_beq hc <;> rfl
  · exact (begins_regexp hl).mono fun c hc => by
      obtain rfl := eq_of_beq hc
      rfl

theorem kind_ne_methodName {cs l : List Char} {k : Kind} (h : lexeme? cs = some (k, l)) :
    k ≠ .methodName := by
  have hops : ∀ a ∈ operators, a.2 ≠ .methodName := by decide
  have hkeyword : (Kind.keyword? l).getD .variableName ≠ .methodName := by
    unfold Kind.keyword?
    split <;> simp
  rcases mem_lexemes.mp (mem_of_longest h) with ⟨hop, _⟩ | ⟨_, rfl⟩ | ⟨_, rfl⟩ | ⟨_, rfl⟩ |
    ⟨_, rfl⟩ | ⟨_, rfl⟩ | ⟨_, rfl⟩
  · exact hops _ hop
  · exact hkeyword
  all_goals simp

/-- An attribute name is an identifier, one with an equals sign behind it, or an operator. -/
theorem methodName?_eq_some {cs l : List Char} (h : methodName? cs = some l) :
    identifier? cs = some l ∨
      (∃ name rest, identifier? cs = some name ∧ cs = name ++ '=' :: rest ∧ l = name ++ ['='] ∧
        name.getLast? ≠ some '?' ∧ name.getLast? ≠ some '!') ∨
      (l ∈ operatorNames ∧ l <+: cs) := by
  rcases longer_eq_some h with h | h
  · obtain ⟨name, hname, rfl⟩ := Option.map_eq_some_iff.mp h
    obtain ⟨rest, rfl⟩ := (begins_identifier hname).isPrefix
    rw [List.drop_left]
    split
    · exact .inl hname
    · exact .inl hname
    · rename_i hquestion hexclamation _
      split
      · exact .inr (.inl ⟨name, _, hname, rfl, rfl, hquestion, hexclamation⟩)
      · exact .inl hname
    · exact .inl hname
  · obtain ⟨hmem, hl⟩ := operatorName?_eq_some h
    exact .inr (.inr ⟨(List.mem_filter.mp hmem).1, hl⟩)

theorem begins_methodName {cs l : List Char} (h : methodName? cs = some l) :
    Begins (fun c => !isBlank c) cs l := by
  rcases methodName?_eq_some h with h | ⟨name, rest, hname, rfl, rfl, _⟩ | ⟨hmem, hl⟩
  · exact (begins_identifier h).mono fun c hc => by simp [not_isBlank_of_isNameStart hc]
  · obtain ⟨c, tail, _, rfl, _, _, hc⟩ := begins_identifier hname
    exact ⟨c, tail ++ ['='], tail ++ '=' :: rest, rfl, rfl, by simp,
      by simp [not_isBlank_of_isNameStart hc]⟩
  · exact (begins_of_mem_operatorNames hmem hl).mono fun c hc => by simp_all

end TreePattern.Token
