import TreePattern.Proofs.Token.Standing
import TreePattern.Proofs.Grammar.Adjacency

/-! Terminals that are scanned as they are written, whatever clear text follows them. -/

namespace TreePattern

open Token (Kind isBlank boundaries symbol? scan?)

namespace Terminal

/-- Whether tokens of the kind have a fixed spelling without letters. -/
def isOperator (k : Kind) : Bool := Token.operators.any (·.2 == k)

theorem isOperator_of_isLink {k : Kind} (h : Grammar.isLink k = true) : isOperator k = true := by
  revert h
  cases k <;> decide

theorem isOperator_of_isAttributeOperator {k : Kind} (h : k.isAttributeOperator = true) :
    isOperator k = true := by
  revert h
  cases k <;> decide

/-- What may follow a terminal without changing where it ends. -/
def Clear (t : Terminal) (cs : List Char) : Prop :=
  match t.request with
  | .name => (∃ ds, cs = ' ' :: ds) ∧ Token.operatorFollows cs = true
  | .token => t.kind.isFree = true ∨ ∀ c ∈ cs.head?,
      (c ∈ boundaries ∨ t.kind = .className ∧ c = '<') ∧
        (t.kind = .symbol → symbol? (t.lexeme ++ [c]) ≠ some (t.lexeme ++ [c]))

/-- A terminal that is scanned as it is written, if something clear follows it. -/
def Stands (t : Terminal) : Prop :=
  ∀ cs, t.Clear cs → scan? t.request (t.lexeme ++ cs) = some (t.kind, t.lexeme)

theorem clear_plain {k : Kind} {l cs : List Char} : (plain k l).Clear cs ↔
    k.isFree = true ∨ ∀ c ∈ cs.head?, (c ∈ boundaries ∨ k = .className ∧ c = '<') ∧
      (k = .symbol → symbol? (l ++ [c]) ≠ some (l ++ [c])) :=
  Iff.rfl

theorem stands_className {l behind : List Char}
    (h : scan? .token (l ++ behind) = some (.className, l)) : (plain .className l).Stands := by
  intro cs hclear
  refine Token.lexeme?_of_className?
    (Token.className?_append ((Token.scan_of_lexeme? h).1 rfl) fun c hc => ?_)
  rcases hclear with hfree | hclear
  · cases hfree
  · rcases (hclear c hc).1 with hmem | ⟨_, rfl⟩
    · exact (Token.not_name_of_boundary c hmem).2.1
    · rfl

theorem stands_symbol {l behind : List Char}
    (h : scan? .token (l ++ behind) = some (.symbol, l)) : (plain .symbol l).Stands := by
  intro cs hclear
  refine Token.lexeme?_of_symbol?
    (Token.symbol?_append ((Token.scan_of_lexeme? h).2.1 rfl) fun c hc => ?_)
  rcases hclear with hfree | hclear
  · cases hfree
  · obtain ⟨hmem, hnot⟩ := hclear c hc
    exact ⟨hmem.resolve_right nofun, hnot rfl⟩

/-- Only a boundary follows a terminal of regular scanning that is no operator and no class name. -/
theorem mem_boundaries_of_clear {k : Kind} {l cs : List Char} (h : (plain k l).Clear cs)
    (hfree : k.isFree = false) (hclass : k ≠ .className) : ∀ c ∈ cs.head?, c ∈ boundaries := by
  intro c hc
  rcases clear_plain.mp h with h | h
  · rw [hfree] at h
    cases h
  · exact (h c hc).1.resolve_right fun h => hclass h.1

theorem stands_keyword {k : Kind} {word : List Char} (hword : Token.variableName? word = some word)
    (hk : Kind.keyword? word = some k) (hfree : k.isFree = false) (hclass : k ≠ .className) :
    (plain k word).Stands := by
  intro cs hclear
  have hvariable : Token.variableName? (word ++ cs) = some word :=
    Token.variableName?_append hword fun c hc =>
      (Token.not_name_of_boundary c (mem_boundaries_of_clear hclear hfree hclass c hc)).2.1
  have hlexeme := Token.lexeme?_of_variableName? hvariable
  rwa [hk] at hlexeme

theorem stands_integer (n : Int64) : (plain .integer (Numeral.ofInt64 n)).Stands := fun _ hclear =>
  Token.lexeme?_of_integer? (Token.integer?_append n (mem_boundaries_of_clear hclear rfl nofun))

theorem stands_count (n : Nat) : (plain .integer (Numeral.ofNat n)).Stands := fun _ hclear =>
  Token.lexeme?_of_integer?
    (Token.integer?_append_ofNat n (mem_boundaries_of_clear hclear rfl nofun))

theorem stands_string (text : List Char) : (plain .string (Quoted.encode text)).Stands :=
  fun cs _ => Token.lexeme?_of_string? (Token.string?_append text cs)

theorem stands_regexp {r : Regexp} (h : Regexp.IsWritable r.source.toList) :
    (plain .regexp r.chars).Stands := fun _ hclear =>
  Token.lexeme?_of_regexp? (Token.regexp?_append h (mem_boundaries_of_clear hclear rfl nofun))

theorem stands_operator {k : Kind} {l : List Char} (h : (l, k) ∈ Token.operators) :
    (plain k l).Stands := by
  intro cs hclear
  have hall : ∀ a ∈ Token.operators,
      a.2.isFree = true ∨ a = (['*'], .star) ∨ a = (['+'], .plus) := by decide
  rcases hall _ h with hfree | heq | heq
  · exact Token.lexeme?_of_isFree h hfree cs
  · cases heq
    have hmem := mem_boundaries_of_clear hclear rfl nofun
    exact Token.lexeme?_star fun hc => absurd (hmem _ hc) (by decide)
  · cases heq
    have hmem := mem_boundaries_of_clear hclear rfl nofun
    exact Token.lexeme?_plus fun c hc => (Token.not_number_of_boundary c (hmem c hc)).2.2.1

theorem stands_attributeName {l : List Char} (h : Token.IsAttributeName l) :
    (name l).Stands := by
  rintro _ ⟨⟨ds, rfl⟩, hop⟩
  simp only [name, scan?, h.methodName?_append hop]

theorem stands_name {l behind : List Char}
    (h : scan? .name (l ++ behind) = some (.methodName, l)) : (name l).Stands :=
  stands_attributeName (Token.isAttributeName_of_methodName? (Token.methodName?_of_scan? h))

/-- Operators have one spelling only. -/
theorem Stands.mem_operators {t : Terminal} (h : t.Stands) (htoken : t.request = .token)
    (hk : isOperator t.kind = true) : (t.lexeme, t.kind) ∈ Token.operators := by
  obtain ⟨_, k, l⟩ := t
  obtain rfl : _ = Cursor.Request.token := htoken
  exact Token.mem_operators_of_lexeme? (h [] (.inr nofun)) hk

theorem Stands.symbol? {t : Terminal} (h : t.Stands) (htoken : t.request = .token)
    (hk : t.kind = .symbol) : Token.symbol? (t.lexeme ++ []) = some t.lexeme := by
  obtain ⟨_, k, l⟩ := t
  obtain rfl : _ = Cursor.Request.token := htoken
  obtain rfl : k = .symbol := hk
  exact (Token.scan_of_lexeme? (h [] (.inr nofun))).2.1 rfl

/-- Nothing is in the way of a terminal of regular scanning at the end of a text. -/
theorem clear_nil {t : Terminal} (htoken : t.request = .token) : t.Clear [] := by
  obtain ⟨_, k, l⟩ := t
  obtain rfl : _ = Cursor.Request.token := htoken
  exact .inr nofun

theorem clear_space {t : Terminal} (h : t.Stands) (htoken : t.request = .token) (cs : List Char) :
    t.Clear (' ' :: cs) := by
  have hsymbol := h.symbol? htoken
  obtain ⟨_, k, l⟩ := t
  obtain rfl : _ = Cursor.Request.token := htoken
  refine .inr ?_
  rintro _ ⟨⟩
  refine ⟨.inl (by decide), fun hk hlonger => ?_⟩
  have hl := hsymbol hk
  obtain ⟨_, tail, _, rfl, _, _, hcolon⟩ := Token.begins_symbol hl
  obtain rfl := eq_of_beq hcolon
  rcases (Token.symbol?_concat_iff hl (by decide)).mp hlonger with ⟨hc, _⟩ | ⟨hc, _⟩ | ⟨hc, _⟩
  all_goals cases hc

end Terminal

end TreePattern
