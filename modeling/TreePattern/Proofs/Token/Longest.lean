import TreePattern.Proofs.Token.Language
import TreePattern.Proofs.Token.Start

/-! Scanning finds the longest token. Main statement: `Cursor.next_reads_longest_word` — where a
text does not begin with white space, the next token is the longest word of any of the languages of
tokens, no word belongs to two of them, and the scan fails only if the text begins with no word. -/

namespace TreePattern

namespace Token

/-- The languages of tokens. -/
inductive Language where
  | operators
  | variableNames
  | classNames
  | symbols
  | integers
  | strings
  | regexps
  deriving DecidableEq

/-- The variable names that are keywords. -/
def keywords : List (List Char × Kind) := [
  ("true".toList, .trueKeyword), ("false".toList, .falseKeyword), ("nil".toList, .nilKeyword),
  ("any".toList, .anyKeyword), ("even".toList, .evenKeyword), ("odd".toList, .oddKeyword)]

/-- A word of a language, and the kind of token that it is. -/
inductive Word : Language → List Char → Kind → Prop where
  | operator {l k} (h : (l, k) ∈ operators) : Word .operators l k
  | keyword {l k} (h : (l, k) ∈ keywords) : Word .variableNames l k
  | variableName {l} (h : IsVariableName l) (hkeyword : ∀ k, (l, k) ∉ keywords) :
      Word .variableNames l .variableName
  | className {l} (h : IsClassName l) : Word .classNames l .className
  | symbol {l} (h : IsSymbol l) : Word .symbols l .symbol
  | integer {l} (h : IsInteger l) : Word .integers l .integer
  | string {l} (h : IsString l) : Word .strings l .string
  | regexp {l} (h : IsRegexp l) : Word .regexps l .regexp

/-! ## Words and lexemes -/

theorem isVariableName_of_keyword {l : List Char} {k : Kind} (h : (l, k) ∈ keywords) :
    IsVariableName l := by
  have hall : ∀ a ∈ keywords, ∃ c cs, a.1 = c :: cs ∧ (c.isLower || c == '_') = true ∧
      ∀ d ∈ cs, isNameChar d = true := by
    simp only [keywords, List.forall_mem_cons, List.not_mem_nil, false_implies, implies_true,
      and_true]
    refine ⟨?_, ?_, ?_, ?_, ?_, ?_⟩
    all_goals exact ⟨_, _, rfl, by decide, List.all_eq_true.mp rfl⟩
  exact hall _ h

theorem keyword?_eq_some_iff {l : List Char} {k : Kind} :
    Kind.keyword? l = some k ↔ (l, k) ∈ keywords := by
  constructor
  · intro h
    unfold Kind.keyword? at h
    split at h
    all_goals first
      | cases h
        rename_i heq
        rw [← String.toList_ofList (l := l), heq]
        decide
      | cases h
  · intro h
    have hall : ∀ a ∈ keywords, Kind.keyword? a.1 = some a.2 := by decide
    exact hall _ h

theorem word_variableName {l : List Char} (h : IsVariableName l) :
    Word .variableNames l ((Kind.keyword? l).getD .variableName) := by
  cases hkeyword : Kind.keyword? l with
  | none =>
      refine .variableName h fun k hk => ?_
      rw [keyword?_eq_some_iff.mpr hk] at hkeyword
      cases hkeyword
  | some k => exact .keyword (keyword?_eq_some_iff.mp hkeyword)

/-- Every lexeme is a word. -/
theorem word_of_mem_lexemes {cs l : List Char} {k : Kind} (h : (k, l) ∈ lexemes cs) :
    (∃ L, Word L l k) ∧ l <+: cs := by
  rcases mem_lexemes.mp h with ⟨hop, hl⟩ | ⟨hl, rfl⟩ | ⟨hl, rfl⟩ | ⟨hl, rfl⟩ | ⟨hl, rfl⟩ |
    ⟨hl, rfl⟩ | ⟨hl, rfl⟩
  · exact ⟨⟨_, .operator hop⟩, hl⟩
  · obtain ⟨hword, hbegins⟩ := (isLongest_variableName cs).of_eq_some hl
    exact ⟨⟨_, word_variableName hword⟩, hbegins⟩
  · obtain ⟨hword, hbegins⟩ := (isLongest_className cs).of_eq_some hl
    exact ⟨⟨_, .className hword⟩, hbegins⟩
  · obtain ⟨hword, hbegins⟩ := (isLongest_symbol cs).of_eq_some hl
    exact ⟨⟨_, .symbol hword⟩, hbegins⟩
  · obtain ⟨hword, hbegins⟩ := (isLongest_integer cs).of_eq_some hl
    exact ⟨⟨_, .integer hword⟩, hbegins⟩
  · obtain ⟨hword, hbegins⟩ := (isLongest_string cs).of_eq_some hl
    exact ⟨⟨_, .string hword⟩, hbegins⟩
  · obtain ⟨hword, hbegins⟩ := (isLongest_regexp cs).of_eq_some hl
    exact ⟨⟨_, .regexp hword⟩, hbegins⟩

/-- No word at the beginning of a text is longer than all lexemes. -/
theorem exists_lexeme_of_word {L : Language} {cs l : List Char} {k : Kind} (h : Word L l k)
    (hbegins : l <+: cs) : ∃ j m, (j, m) ∈ lexemes cs ∧ l.length ≤ m.length := by
  have hvariable (h : IsVariableName l) : ∃ j m, (j, m) ∈ lexemes cs ∧ l.length ≤ m.length := by
    obtain ⟨m, hm, hle⟩ := (isLongest_variableName cs).le_length h hbegins
    exact ⟨_, m, mem_lexemes.mpr (.inr (.inl ⟨hm, rfl⟩)), hle⟩
  cases h with
  | operator h => exact ⟨k, l, mem_lexemes.mpr (.inl ⟨h, hbegins⟩), Nat.le_refl _⟩
  | keyword h => exact hvariable (isVariableName_of_keyword h)
  | variableName h => exact hvariable h
  | className h =>
      obtain ⟨m, hm, hle⟩ := (isLongest_className cs).le_length h hbegins
      exact ⟨.className, m, mem_lexemes.mpr (by simp [hm]), hle⟩
  | symbol h =>
      obtain ⟨m, hm, hle⟩ := (isLongest_symbol cs).le_length h hbegins
      exact ⟨.symbol, m, mem_lexemes.mpr (by simp [hm]), hle⟩
  | integer h =>
      obtain ⟨m, hm, hle⟩ := (isLongest_integer cs).le_length h hbegins
      exact ⟨.integer, m, mem_lexemes.mpr (by simp [hm]), hle⟩
  | string h =>
      obtain ⟨m, hm, hle⟩ := (isLongest_string cs).le_length h hbegins
      exact ⟨.string, m, mem_lexemes.mpr (by simp [hm]), hle⟩
  | regexp h =>
      obtain ⟨m, hm, hle⟩ := (isLongest_regexp cs).le_length h hbegins
      exact ⟨.regexp, m, mem_lexemes.mpr (by simp [hm]), hle⟩

/-! ## The languages are disjoint -/

/-- The language of a word, which its first character tells. Only a plus sign may stand alone or
begin an integer. -/
def languageOf : Start → List Char → Language
  | .plus, [] => .operators
  | .plus, _ | .number, _ => .integers
  | .className, _ => .classNames
  | .word, _ => .variableNames
  | .symbol, _ => .symbols
  | .string, _ => .strings
  | .regexp, _ => .regexps
  | .operator, _ => .operators

theorem Word.language_eq {L : Language} {l : List Char} {k : Kind} (h : Word L l k) :
    ∃ c cs, l = c :: cs ∧ L = languageOf (start c) cs := by
  have hvariable (h : IsVariableName l) :
      ∃ c cs, l = c :: cs ∧ .variableNames = languageOf (start c) cs := by
    obtain ⟨c, cs, rfl, hc, _⟩ := h
    exact ⟨c, cs, rfl, by rw [start_of_word hc, languageOf]⟩
  have hnumber {l : List Char} (h : IsUnsigned l) :
      ∃ c cs, l = c :: cs ∧ .integers = languageOf (start c) cs := by
    cases l with
    | nil => cases h
    | cons c cs => exact ⟨c, cs, rfl, by rw [start_of_digit h.isDigit, languageOf]⟩
  cases h with
  | operator h =>
      have hall : ∀ a ∈ operators, a.1 ≠ [] ∧
          .operators = languageOf (start (a.1.headD ' ')) a.1.tail := by decide
      obtain ⟨hne, hlanguage⟩ := hall _ h
      obtain ⟨c, cs, rfl⟩ := List.exists_cons_of_ne_nil hne
      exact ⟨c, cs, rfl, hlanguage⟩
  | keyword h => exact hvariable (isVariableName_of_keyword h)
  | variableName h => exact hvariable h
  | className h =>
      obtain ⟨c, cs, rfl, hc, _⟩ := h
      exact ⟨c, cs, rfl, by rw [start_of_isUpper hc, languageOf]⟩
  | symbol h =>
      obtain ⟨name, rfl, _⟩ := h
      exact ⟨':', name, rfl, rfl⟩
  | integer h =>
      rcases h with h | ⟨cs, rfl | rfl, h⟩
      · exact hnumber h
      · obtain ⟨d, ds, rfl, _⟩ := hnumber h
        exact ⟨'+', d :: ds, rfl, rfl⟩
      · exact ⟨'-', cs, rfl, rfl⟩
  | string h =>
      obtain ⟨quote, body, rfl | rfl, rfl, _⟩ := h
      · exact ⟨'\'', _, rfl, rfl⟩
      · exact ⟨'"', _, rfl, rfl⟩
  | regexp h =>
      obtain ⟨body, flags, rfl, _⟩ := h
      exact ⟨'/', _, rfl, rfl⟩

theorem Word.isInteger {L : Language} {l : List Char} (h : Word L l .integer) : IsInteger l := by
  have hoperators : ∀ a ∈ operators, a.2 ≠ .integer := by decide
  have hkeywords : ∀ a ∈ keywords, a.2 ≠ .integer := by decide
  cases h with
  | operator h => exact absurd rfl (hoperators _ h)
  | keyword h => exact absurd rfl (hkeywords _ h)
  | integer h => exact h

theorem Word.isRegexp {L : Language} {l : List Char} (h : Word L l .regexp) : IsRegexp l := by
  have hoperators : ∀ a ∈ operators, a.2 ≠ .regexp := by decide
  have hkeywords : ∀ a ∈ keywords, a.2 ≠ .regexp := by decide
  cases h with
  | operator h => exact absurd rfl (hoperators _ h)
  | keyword h => exact absurd rfl (hkeywords _ h)
  | regexp h => exact h

theorem Word.ne_nil {L : Language} {l : List Char} {k : Kind} (h : Word L l k) : l ≠ [] := by
  obtain ⟨c, cs, rfl, _⟩ := h.language_eq
  simp

/-- No word belongs to two languages or has two kinds. -/
theorem Word.unique {L M : Language} {l : List Char} {j k : Kind} (h : Word L l j)
    (h' : Word M l k) : L = M ∧ j = k := by
  obtain ⟨c, cs, rfl, hL⟩ := h.language_eq
  obtain ⟨_, _, heq, hM⟩ := h'.language_eq
  cases heq
  obtain rfl : L = M := hL.trans hM.symm
  refine ⟨rfl, ?_⟩
  cases h with
  | operator h =>
      have hall : ∀ a ∈ operators, ∀ b ∈ operators, a.1 = b.1 → a.2 = b.2 := by decide
      cases h' with
      | operator h' => exact hall _ h _ h' rfl
  | keyword h =>
      have hall : ∀ a ∈ keywords, ∀ b ∈ keywords, a.1 = b.1 → a.2 = b.2 := by decide
      cases h' with
      | keyword h' => exact hall _ h _ h' rfl
      | variableName _ hkeyword => exact absurd h (hkeyword _)
  | variableName _ hkeyword =>
      cases h' with
      | keyword h' => exact absurd h' (hkeyword _)
      | variableName => rfl
  | className | symbol | integer | string | regexp =>
      cases h'
      rfl

/-! ## The longest word -/

theorem lexeme?_eq_some_iff {cs l : List Char} {k : Kind} : lexeme? cs = some (k, l) ↔
    (∃ L, Word L l k) ∧ l <+: cs ∧ ∀ L m j, Word L m j → m <+: cs → m.length ≤ l.length := by
  constructor
  · intro h
    obtain ⟨hword, hbegins⟩ := word_of_mem_lexemes (mem_of_longest h)
    refine ⟨hword, hbegins, fun L m j hm hm' => ?_⟩
    obtain ⟨i, n, hn, hle⟩ := exists_lexeme_of_word hm hm'
    exact Nat.le_trans hle (le_size_longest h _ hn)
  · rintro ⟨⟨L, hl⟩, hbegins, hmax⟩
    obtain ⟨i, n, hn, hle⟩ := exists_lexeme_of_word hl hbegins
    cases h : lexeme? cs with
    | none =>
        rw [lexeme?, longest_eq_none] at h
        rw [h] at hn
        cases hn
    | some found =>
        obtain ⟨j, m⟩ := found
        obtain ⟨⟨M, hm⟩, hm'⟩ := word_of_mem_lexemes (mem_of_longest h)
        have hlength : l.length = m.length :=
          Nat.le_antisymm (Nat.le_trans hle (le_size_longest h _ hn)) (hmax M m j hm hm')
        obtain rfl : l = m :=
          (List.prefix_of_prefix_length_le hbegins hm' hlength.le).eq_of_length hlength
        obtain ⟨_, rfl⟩ := hl.unique hm
        rfl

theorem lexeme?_eq_none_iff {cs : List Char} :
    lexeme? cs = none ↔ ∀ L l k, Word L l k → ¬ l <+: cs := by
  rw [lexeme?, longest_eq_none]
  constructor
  · intro h L l k hl hbegins
    obtain ⟨j, m, hm, _⟩ := exists_lexeme_of_word hl hbegins
    rw [h] at hm
    cases hm
  · intro h
    apply List.eq_nil_iff_forall_not_mem.mpr
    rintro ⟨k, l⟩ hl
    obtain ⟨⟨L, hword⟩, hbegins⟩ := word_of_mem_lexemes hl
    exact h L l k hword hbegins

/-- The order in which lexemes are compared does not matter. -/
theorem longest_perm {cs : List Char} {xs : List (Kind × List Char)} (h : xs.Perm (lexemes cs)) :
    longest (·.2.length) xs = lexeme? cs := by
  cases hx : longest (·.2.length) xs with
  | none =>
      rw [longest_eq_none] at hx
      rw [hx] at h
      rw [lexeme?, h.symm.eq_nil]
      rfl
  | some x =>
      obtain ⟨k, l⟩ := x
      obtain ⟨hword, hbegins⟩ := word_of_mem_lexemes (h.mem_iff.mp (mem_of_longest hx))
      refine (lexeme?_eq_some_iff.mpr ⟨hword, hbegins, fun L m j hm hm' => ?_⟩).symm
      obtain ⟨i, n, hn, hle⟩ := exists_lexeme_of_word hm hm'
      exact Nat.le_trans hle (le_size_longest hx _ (h.mem_iff.mpr hn))

end Token

open Token

namespace Cursor

theorem skipBlank_of_head {c : Cursor} {d : Char} {ds : List Char} (hrest : c.rest = d :: ds)
    (hd : isBlank d = false) : c.skipBlank = c := by
  obtain ⟨offset, rest⟩ := c
  obtain rfl : rest = d :: ds := hrest
  simp [skipBlank, advance, hd, utf8Length]

theorem next_of_head {c : Cursor} {d : Char} {ds : List Char} (hrest : c.rest = d :: ds)
    (hd : isBlank d = false) : c.next = match lexeme? c.rest with
      | some (kind, lexeme) => .ok (some (c.token kind lexeme))
      | none => .error ⟨d, c.offset⟩ := by
  rw [next, skipBlank_of_head hrest hd]
  obtain ⟨offset, rest⟩ := c
  obtain rfl : rest = d :: ds := hrest
  rfl

theorem next_eq_some_iff {c c' : Cursor} {t : Token} {d : Char} {ds : List Char}
    (hrest : c.rest = d :: ds) (hd : isBlank d = false) :
    c.next = .ok (some (t, c')) ↔ lexeme? c.rest = some (t.kind, t.lexeme) ∧
      t.offset = c.offset ∧ c' = c.advance t.lexeme.length := by
  obtain ⟨kind, lexeme, offset⟩ := t
  rw [next_of_head hrest hd]
  cases lexeme? c.rest with
  | none => simp
  | some found =>
      obtain ⟨k, l⟩ := found
      simp only [token, Except.ok.injEq, Option.some.injEq, Prod.mk.injEq, Token.mk.injEq]
      constructor
      · rintro ⟨⟨rfl, rfl, rfl⟩, rfl⟩
        exact ⟨⟨rfl, rfl⟩, rfl, rfl⟩
      · rintro ⟨⟨rfl, rfl⟩, rfl, rfl⟩
        exact ⟨⟨rfl, rfl, rfl⟩, rfl⟩

/-- A lexeme at a position is the next token there. -/
theorem next_of_lexeme? {l rest : List Char} {k : Kind} (h : lexeme? (l ++ rest) = some (k, l))
    (offset : Nat) : next ⟨offset, l ++ rest⟩ =
      .ok (some (⟨k, l, offset⟩, ⟨offset + utf8Length l, rest⟩)) := by
  obtain ⟨d, tail, ds, _, hrest, _, hd⟩ := begins_lexeme h
  have hadvance : (⟨offset, l ++ rest⟩ : Cursor).advance l.length =
      ⟨offset + utf8Length l, rest⟩ := by
    simp [advance]
  rw [← hadvance]
  exact (next_eq_some_iff hrest (by simpa using hd)).mpr ⟨h, rfl, rfl⟩

/-- A token that was not asked for as a name is a word. -/
theorem exists_word_of_answer {c c' : Cursor} {request : Request} {t : Token}
    (h : c.answer request = .ok (some (t, c'))) (hk : t.kind ≠ .methodName) :
    ∃ L, Word L t.lexeme t.kind := by
  have hlexeme : ∃ cs, lexeme? cs = some (t.kind, t.lexeme) := by
    cases request with
    | token =>
        obtain ⟨_, _, _, _, hscan⟩ := Terminal.read?_eq_some_iff.mp (next_eq_some h)
        exact ⟨_, hscan⟩
    | name =>
        obtain ⟨_, _, _, _, hscan⟩ := Terminal.read?_eq_some_iff.mp (nextName_eq_some h)
        simp only [scan?] at hscan
        split at hscan
        · exact absurd (Prod.mk.inj (Option.some.inj hscan)).1.symm hk
        · exact ⟨_, hscan⟩
  obtain ⟨cs, hlexeme⟩ := hlexeme
  exact (word_of_mem_lexemes (mem_of_longest hlexeme)).1

/-- Where a text does not begin with white space, the next token is its longest beginning that is a
word, and of the kind of that word. No word has two kinds, so that the order in which the languages
are tried does not matter. The scan fails exactly if the text begins with no word. -/
theorem next_reads_longest_word {c : Cursor} {d : Char} {ds : List Char} (hrest : c.rest = d :: ds)
    (hd : isBlank d = false) :
    (∀ t c', c.next = .ok (some (t, c')) ↔
      (∃ L, Word L t.lexeme t.kind) ∧ t.lexeme ≠ [] ∧ t.lexeme <+: c.rest ∧
        (∀ L l k, Word L l k → l <+: c.rest → l.length ≤ t.lexeme.length) ∧
        t.offset = c.offset ∧ c' = c.advance t.lexeme.length) ∧
      (∀ L M l j k, Word L l j → Word M l k → L = M ∧ j = k) ∧
      (∀ xs, xs.Perm (lexemes c.rest) → longest (·.2.length) xs = lexeme? c.rest) ∧
      c.next ≠ .ok none ∧
      ∀ e, c.next = .error e ↔
        e = ⟨d, c.offset⟩ ∧ ∀ L l k, Word L l k → l ≠ [] → ¬ l <+: c.rest := by
  have hnone : lexeme? c.rest = none ↔ ∀ L l k, Word L l k → l ≠ [] → ¬ l <+: c.rest := by
    rw [lexeme?_eq_none_iff]
    constructor
    · exact fun h L l k hl _ => h L l k hl
    · exact fun h L l k hl => h L l k hl hl.ne_nil
  refine ⟨fun t c' => ?_, fun L M l j k => Word.unique, fun xs => longest_perm, ?_, fun e => ?_⟩
  · constructor
    · intro h
      obtain ⟨hlexeme, hoffset, rfl⟩ := (next_eq_some_iff hrest hd).mp h
      obtain ⟨hword, hbegins, hmax⟩ := lexeme?_eq_some_iff.mp hlexeme
      obtain ⟨L, hL⟩ := hword
      exact ⟨⟨L, hL⟩, hL.ne_nil, hbegins, hmax, hoffset, rfl⟩
    · rintro ⟨hword, _, hbegins, hmax, hoffset, rfl⟩
      have hlexeme := lexeme?_eq_some_iff.mpr ⟨hword, hbegins, hmax⟩
      exact (next_eq_some_iff hrest hd).mpr ⟨hlexeme, hoffset, rfl⟩
  · rw [next_of_head hrest hd]
    cases lexeme? c.rest <;> simp
  · rw [← hnone, next_of_head hrest hd]
    cases lexeme? c.rest <;> simp [eq_comm]

/-- A hexadecimal numeral is one token up to the bracket behind it, and nothing begins with an
ampersand. -/
theorem next_reads_numeral_and_no_ampersand :
    (isBlank '0' = false ∧
      next ⟨2, "0x1f_2]".toList⟩ = .ok (some (⟨.integer, "0x1f_2".toList, 2⟩, ⟨8, [']']⟩)) ∧
      ∀ L l k, Word L l k → l <+: "0x1f_2]".toList → l.length ≤ 6) ∧
    (isBlank '&' = false ∧ next ⟨5, ['&', '&']⟩ = .error ⟨'&', 5⟩ ∧
      ∀ L l k, Word L l k → l ≠ [] → ¬ l <+: ['&', '&']) := by
  have hblank : isBlank '0' = false ∧ isBlank '&' = false := by decide
  have hnumeral : next ⟨2, "0x1f_2]".toList⟩ =
      .ok (some (⟨.integer, "0x1f_2".toList, 2⟩, ⟨8, [']']⟩)) := by decide +kernel
  have hampersand : next ⟨5, ['&', '&']⟩ = .error ⟨'&', 5⟩ := by decide +kernel
  obtain ⟨hsome, _⟩ := next_reads_longest_word (c := ⟨2, "0x1f_2]".toList⟩) rfl hblank.1
  obtain ⟨_, _, _, _, herror⟩ := next_reads_longest_word (c := ⟨5, ['&', '&']⟩) rfl hblank.2
  obtain ⟨_, _, _, hmax, _⟩ := (hsome _ _).mp hnumeral
  exact ⟨⟨hblank.1, hnumeral, hmax⟩, hblank.2, hampersand, ((herror _).mp hampersand).2⟩

end Cursor

end TreePattern
