import Mathlib.Data.List.Infix
import TreePattern.Proofs.Token.Start
import TreePattern.Proofs.Token.Tiling

/-! Lexemes by the scanner that finds them. The longest lexeme at the beginning of a text is what
the scanner of its kind yields, or an operator. -/

namespace TreePattern.Token

/-! ## Lexemes that are no operators -/

theorem exists_cons_of_lexeme? {cs l : List Char} {k : Kind} (h : lexeme? cs = some (k, l)) :
    ∃ c ds, cs = c :: ds := by
  obtain ⟨c, _, ds, _, hcs, _⟩ := begins_lexeme h
  exact ⟨c, ds, hcs⟩

theorem lexeme?_of_className? {cs l : List Char} (h : className? cs = some l) :
    lexeme? cs = some (.className, l) := by
  obtain ⟨c, _, ds, _, rfl, _, hc⟩ := begins_className h
  apply lexeme?_of_scanner?
  rw [start_of_isUpper hc, scanner?, h]
  rfl

theorem lexeme?_of_variableName? {cs l : List Char} (h : variableName? cs = some l) :
    lexeme? cs = some ((Kind.keyword? l).getD .variableName, l) := by
  obtain ⟨c, _, ds, _, rfl, _, hc⟩ := begins_variableName h
  apply lexeme?_of_scanner?
  rw [start_of_word hc, scanner?, h]
  rfl

theorem lexeme?_of_symbol? {cs l : List Char} (h : symbol? cs = some l) :
    lexeme? cs = some (.symbol, l) := by
  obtain ⟨c, _, ds, _, rfl, _, hc⟩ := begins_symbol h
  obtain rfl := eq_of_beq hc
  exact lexeme?_of_scanner? (Option.map_eq_some_iff.mpr ⟨l, h, rfl⟩)

theorem lexeme?_of_integer? {cs l : List Char} (h : integer? cs = some l) :
    lexeme? cs = some (.integer, l) := by
  obtain ⟨c, _, ds, _, rfl, _, hc⟩ := begins_integer h
  apply lexeme?_of_scanner?
  rcases start_of_isIntegerStart hc with hstart | hstart
  all_goals
    rw [hstart, scanner?, h]
    rfl

theorem lexeme?_of_string? {cs l : List Char} (h : string? cs = some l) :
    lexeme? cs = some (.string, l) := by
  obtain ⟨c, _, ds, _, rfl, _, hc⟩ := begins_string h
  rcases Bool.or_eq_true_iff.mp hc with hc | hc
  all_goals
    obtain rfl := eq_of_beq hc
    exact lexeme?_of_scanner? (Option.map_eq_some_iff.mpr ⟨l, h, rfl⟩)

theorem lexeme?_of_regexp? {cs l : List Char} (h : regexp? cs = some l) :
    lexeme? cs = some (.regexp, l) := by
  obtain ⟨c, _, ds, _, rfl, _, hc⟩ := begins_regexp h
  obtain rfl := eq_of_beq hc
  exact lexeme?_of_scanner? (Option.map_eq_some_iff.mpr ⟨l, h, rfl⟩)

/-- What the lexeme of a kind is, for the kinds whose lexemes vary. -/
theorem scan_of_lexeme? {cs l : List Char} {k : Kind} (h : lexeme? cs = some (k, l)) :
    (k = .className → className? cs = some l) ∧ (k = .symbol → symbol? cs = some l) ∧
      (k = .regexp → regexp? cs = some l) := by
  have hops : ∀ a ∈ operators, a.2 ≠ .className ∧ a.2 ≠ .symbol ∧ a.2 ≠ .regexp := by decide
  have hword : (Kind.keyword? l).getD .variableName ≠ .className ∧
      (Kind.keyword? l).getD .variableName ≠ .symbol ∧
      (Kind.keyword? l).getD .variableName ≠ .regexp := by
    unfold Kind.keyword?
    split <;> simp
  rcases mem_lexemes.mp (mem_of_longest h) with ⟨hop, _⟩ | ⟨_, rfl⟩ | ⟨hl, rfl⟩ | ⟨hl, rfl⟩ |
    ⟨_, rfl⟩ | ⟨_, rfl⟩ | ⟨hl, rfl⟩
  · obtain ⟨hclass, hsymbol, hregexp⟩ := hops _ hop
    exact ⟨fun hk => absurd hk hclass, fun hk => absurd hk hsymbol, fun hk => absurd hk hregexp⟩
  · obtain ⟨hclass, hsymbol, hregexp⟩ := hword
    exact ⟨fun hk => absurd hk hclass, fun hk => absurd hk hsymbol, fun hk => absurd hk hregexp⟩
  · exact ⟨fun _ => hl, nofun, nofun⟩
  · exact ⟨nofun, fun _ => hl, nofun⟩
  · exact ⟨nofun, nofun, nofun⟩
  · exact ⟨nofun, nofun, nofun⟩
  · exact ⟨nofun, nofun, fun _ => hl⟩

/-! ## Operators -/

theorem lexeme?_of_operator {c : Char} {cs tail : List Char} {k : Kind}
    (h : (c :: tail, k) ∈ operators)
    (hlonger : ∀ b ∈ operators, c :: tail <+: b.1 → b.1 <+: c :: (tail ++ cs) → b = (c :: tail, k))
    (hscanner : scanner? (start c) (c :: (tail ++ cs)) = none) :
    lexeme? (c :: (tail ++ cs)) = some (k, c :: tail) := by
  have hprefix : c :: tail <+: c :: (tail ++ cs) := List.prefix_append (c :: tail) cs
  refine longest_eq_some (mem_lexemes_cons.mpr (.inl ⟨h, hprefix⟩)) ?_
  rintro ⟨k', l'⟩ hmem hne
  rcases mem_lexemes_cons.mp hmem with ⟨hop, hl⟩ | hscan
  · have hnot : ¬ c :: tail <+: l' := by
      intro hle
      cases hlonger _ hop hle hl
      exact hne rfl
    have hshorter : l' <+: c :: tail :=
      (List.prefix_or_prefix_of_prefix hl hprefix).resolve_right hnot
    refine lt_of_le_of_ne hshorter.length_le fun hlength => hnot ?_
    rw [hshorter.eq_of_length hlength]
  · rw [hscanner] at hscan
    cases hscan

/-- The kinds of operators that stand whatever follows them. -/
def Kind.isFree (k : Kind) : Bool := operators.any (·.2 == k) && k != .star && k != .plus

theorem lexeme?_of_isFree {l : List Char} {k : Kind} (h : (l, k) ∈ operators)
    (hk : k.isFree = true) (cs : List Char) : lexeme? (l ++ cs) = some (k, l) := by
  have hstart : ∀ a ∈ operators, a.2.isFree = true → a.1.head?.map start = some .operator := by
    decide
  have hlonger : ∀ a ∈ operators, a.2.isFree = true → ∀ b ∈ operators, a.1 <+: b.1 → b = a := by
    decide
  obtain ⟨c, hc, hoperator⟩ := Option.map_eq_some_iff.mp (hstart _ h hk)
  obtain ⟨tail, rfl⟩ := List.head?_eq_some_iff.mp hc
  refine lexeme?_of_operator h (fun b hb hle _ => hlonger _ h hk b hb hle) ?_
  rw [hoperator]
  rfl

/-- The operators are the only words of their kinds. -/
theorem mem_operators_of_lexeme? {cs l : List Char} {k : Kind} (h : lexeme? cs = some (k, l))
    (hk : operators.any (·.2 == k) = true) : (l, k) ∈ operators := by
  have hword : operators.any (·.2 == (Kind.keyword? l).getD .variableName) = false := by
    unfold Kind.keyword?
    split <;> rfl
  rcases mem_lexemes.mp (mem_of_longest h) with ⟨hop, _⟩ | ⟨_, rfl⟩ | ⟨_, rfl⟩ | ⟨_, rfl⟩ |
    ⟨_, rfl⟩ | ⟨_, rfl⟩ | ⟨_, rfl⟩
  · exact hop
  · rw [hword] at hk
    cases hk
  all_goals cases hk

/-- A star stands unless an equals sign follows it. -/
theorem lexeme?_star {cs : List Char} (h : '=' ∉ cs.head?) :
    lexeme? ('*' :: cs) = some (.star, ['*']) := by
  have hlonger : ∀ b ∈ operators, ['*'] <+: b.1 → b = (['*'], .star) ∨ b.1 = ['*', '='] := by decide
  refine lexeme?_of_operator (show (['*'], .star) ∈ operators by decide)
    (fun b hb hle hb' => ?_) rfl
  refine (hlonger b hb hle).resolve_right fun heq => h ?_
  rw [heq] at hb'
  obtain ⟨rest, hrest⟩ := hb'
  cases hrest
  rfl

/-- A plus sign stands unless a digit follows it. -/
theorem lexeme?_plus {cs : List Char} (h : ∀ c ∈ cs.head?, Digit.isDigit 10 c = false) :
    lexeme? ('+' :: cs) = some (.plus, ['+']) := by
  have hlonger : ∀ b ∈ operators, ['+'] <+: b.1 → b = (['+'], .plus) := by decide
  refine lexeme?_of_operator (show (['+'], .plus) ∈ operators by decide)
    (fun b hb hle _ => hlonger b hb hle) ?_
  change ((unsigned? cs).map ('+' :: ·)).map (Kind.integer, ·) = none
  cases hdigits : unsigned? cs with
  | none => rfl
  | some digits =>
      obtain ⟨c, _, ds, _, rfl, _, hc⟩ := begins_unsigned hdigits
      rw [h c rfl] at hc
      cases hc

end TreePattern.Token
