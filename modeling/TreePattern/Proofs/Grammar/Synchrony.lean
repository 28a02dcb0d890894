import TreePattern.Proofs.Grammar.Adjacency
import TreePattern.Proofs.Token.Standing

/-! A text is tiled in one way only by terminals that may follow each other. The way in which a
token is asked for is left open behind a comma alone; there, what an attribute name covers is no
phrase with an attribute operator behind it. -/

namespace TreePattern.Grammar

open Token (Kind isBlank lexeme? methodName?)
open Terminal (plain name)

theorem not_tiles_of_blank {cs rest : List Char} {t : Terminal} {ts : List Terminal}
    (hblank : ∀ c ∈ cs, isBlank c = true) : ¬ Tiles cs (t :: ts) rest := by
  intro h
  obtain ⟨behind, hread, _⟩ := Tiles.cons_iff.mp h
  obtain ⟨_, blanks, _, rfl, hscan⟩ := Terminal.read?_eq_some_iff.mp hread
  obtain ⟨c, tail, _, hl, _, _, hc⟩ := Token.begins_scan hscan
  have hmem : c ∈ blanks ++ (t.lexeme ++ behind) := by simp [hl]
  simp [hblank c hmem] at hc

/-- Texts that no terminal of regular scanning has behind it in a derivation: an attribute operator
comes next, perhaps behind other operators, or no token at all. -/
inductive Doomed : List Char → Prop where
  | operator {cs rest k l} (hk : k.isAttributeOperator = true) (h : Tiles cs [plain k l] rest) :
      Doomed cs
  | behind {cs k l} (hmem : (l, k) ∈ Token.operators) (hfree : k.isFree = true)
      (hangle : k ≠ .leftAngle) (hcomma : k ≠ .comma) (h : Doomed cs) : Doomed (l ++ cs)
  | exclamation (cs) : Doomed ('!' :: cs)

theorem lexeme?_exclamation (cs : List Char) : lexeme? ('!' :: cs) = none := by
  have hall : ∀ a ∈ Token.operators, a.1.head? ≠ some '!' ∧ a.1 ≠ [] := by decide
  refine Token.longest_eq_none.mpr (List.eq_nil_iff_forall_not_mem.mpr ?_)
  rintro ⟨k, l⟩ hmem
  rcases Token.mem_lexemes_cons.mp hmem with ⟨hop, hl⟩ | hscan
  · obtain ⟨hhead, hne⟩ := hall _ hop
    obtain ⟨c, tail, rfl⟩ := List.exists_cons_of_ne_nil hne
    obtain ⟨rfl, _⟩ := List.cons_prefix_cons.mp hl
    exact hhead rfl
  · cases hscan

theorem not_doomed {u : Terminal} {us : List Terminal} {cs rest : List Char}
    (hchain : (u :: us).IsChain Adjacent) (hu : u.request = .token) (hangle : u.kind ≠ .leftAngle)
    (hcomma : u.kind ≠ .comma) (htiles : Tiles cs us rest)
    (hblank : ∀ c ∈ rest, isBlank c = true) : ¬ Doomed cs := by
  intro h
  have hcons {cs behind : List Char} {t : Terminal} (ht : Tiles cs [t] behind) {us : List Terminal}
      (htiles : Tiles cs us rest) : ∃ v vs, us = v :: vs := by
    cases us with
    | nil =>
        obtain rfl := Tiles.nil_iff.mp htiles
        exact absurd ht (not_tiles_of_blank hblank)
    | cons v vs => exact ⟨v, vs, rfl⟩
  induction h generalizing u us with
  | @operator cs behind k l hk hl =>
      obtain ⟨v, vs, rfl⟩ := hcons hl htiles
      have hadjacent := (List.isChain_cons_cons.mp hchain).1
      have hv := hadjacent.of_other hu hangle hcomma
      obtain ⟨rfl, _⟩ := htiles.head_unique hl hv
      have hk' : k.isAttributeOperator = false := hadjacent.of_token hu hv
      rw [hk] at hk'
      cases hk'
  | @behind cs k l hmem hfree hangle' hcomma' _ ih =>
      have hl : Tiles (l ++ cs) [plain k l] cs :=
        .of_lexeme? (Token.lexeme?_of_isFree hmem hfree cs)
      obtain ⟨v, vs, rfl⟩ := hcons hl htiles
      obtain ⟨hadjacent, hchain'⟩ := List.isChain_cons_cons.mp hchain
      have hv := hadjacent.of_other hu hangle hcomma
      obtain ⟨rfl, hus⟩ := htiles.head_unique hl hv
      exact ih hchain' rfl hangle' hcomma' hus
  | exclamation cs =>
      cases us with
      | nil =>
          obtain rfl := Tiles.nil_iff.mp htiles
          exact absurd (hblank '!' List.mem_cons_self) (by decide)
      | cons v vs =>
          have hv := (List.isChain_cons_cons.mp hchain).1.of_other hu hangle hcomma
          obtain ⟨behind, hread, _⟩ := Tiles.cons_iff.mp htiles
          rw [hv] at hread
          simp [Terminal.read?, Token.scan?, isBlank, lexeme?_exclamation] at hread

/-! ## Names in the place of phrases -/

theorem doomed_equals (cs : List Char) : Doomed ('=' :: cs) :=
  .operator (k := .equals) rfl
    (.of_lexeme? (Token.lexeme?_of_isFree (l := ['=']) (by decide) rfl cs))

theorem nameMark_cases (cs : List Char) :
    (∃ ds, cs = '?' :: ds ∧ Token.nameMark cs = ['?']) ∨
      (∃ ds, cs = '!' :: ds ∧ Token.nameMark cs = ['!']) ∨ Token.nameMark cs = [] := by
  unfold Token.nameMark
  split
  · exact .inl ⟨_, rfl, rfl⟩
  · exact .inr (.inl ⟨_, rfl, rfl⟩)
  · exact .inr (.inr rfl)

/-- A word and the name that begins at the same place differ in a mark or an equals sign. -/
theorem doomed_of_word {c : Char} {cs x : List Char} (hc : Token.isNameStart c = true)
    (hname : methodName? (c :: cs) = some x) (hop : Doomed ((c :: cs).drop x.length)) :
    Doomed (cs.dropWhile Token.isNameChar) := by
  have hsplit : c :: cs = c :: cs.takeWhile Token.isNameChar ++ cs.dropWhile Token.isNameChar := by
    rw [List.cons_append, List.takeWhile_append_dropWhile]
  generalize hword : c :: cs.takeWhile Token.isNameChar = word at hsplit
  generalize htail : cs.dropWhile Token.isNameChar = tail at hsplit ⊢
  have hidentifier : Token.identifier? (c :: cs) = some (word ++ Token.nameMark tail) := by
    rw [Token.identifier?, if_pos hc, ← hword, ← htail, List.cons_append]
  rw [hsplit] at hop
  rcases Token.methodName?_eq_some hname with h | ⟨n, rest, h, heq, rfl, hquestion, hexclamation⟩ |
    ⟨hmem, hprefix⟩
  · rw [h] at hidentifier
    cases hidentifier
    rcases nameMark_cases tail with ⟨ds, rfl, hmark⟩ | ⟨ds, rfl, _⟩ | hmark
    · rw [hmark, Token.drop_length_concat] at hop
      exact .behind (k := .question) (l := ['?']) (by decide) rfl (by decide) (by decide) hop
    · exact .exclamation ds
    · rwa [hmark, List.append_nil, List.drop_left] at hop
  · rw [h] at hidentifier
    cases hidentifier
    rcases nameMark_cases tail with ⟨ds, rfl, hmark⟩ | ⟨ds, rfl, _⟩ | hmark
    · rw [hmark, List.getLast?_concat] at hquestion
      exact absurd rfl hquestion
    · exact .exclamation ds
    · rw [hmark, List.append_nil, hsplit] at heq
      rw [List.append_cancel_left heq]
      exact doomed_equals rest
  · obtain ⟨_, _, _, _, heq, _, hfirst⟩ := Token.begins_of_mem_operatorNames hmem hprefix
    cases heq
    simp [hc] at hfirst

theorem drop_length_takeWhile (p : Char → Bool) (c : Char) (cs : List Char) :
    (c :: cs).drop (c :: cs.takeWhile p).length = cs.dropWhile p := by
  have hsplit : c :: cs = c :: cs.takeWhile p ++ cs.dropWhile p := by
    rw [List.cons_append, List.takeWhile_append_dropWhile]
  calc (c :: cs).drop (c :: cs.takeWhile p).length
      = (c :: cs.takeWhile p ++ cs.dropWhile p).drop (c :: cs.takeWhile p).length := by
        rw [← hsplit]
    _ = cs.dropWhile p := List.drop_left

theorem mem_operatorNames_of_methodName? {c : Char} {cs x : List Char}
    (hc : Token.isNameStart c = false) (h : methodName? (c :: cs) = some x) :
    x ∈ Token.operatorNames ∧ x <+: c :: cs := by
  have hnone := Token.identifier?_eq_none hc cs
  rcases Token.methodName?_eq_some h with h | ⟨_, _, h, _⟩ | h
  · rw [hnone] at h
    cases h
  · rw [hnone] at h
    cases h
  · exact h

theorem head_mem_of_methodName? {c : Char} {cs x : List Char} (hc : Token.isNameStart c = false)
    (h : methodName? (c :: cs) = some x) :
    some c ∈ Token.operatorNames.map List.head? := by
  obtain ⟨hmem, hprefix⟩ := mem_operatorNames_of_methodName? hc h
  obtain ⟨_, _, _, rfl, heq, _⟩ := Token.begins_of_mem_operatorNames hmem hprefix
  cases heq
  exact List.mem_map.mpr ⟨_, hmem, rfl⟩

/-- The name of an index method is scanned as brackets. -/
theorem doomed_of_bracket {cs x : List Char} (hname : methodName? ('[' :: cs) = some x)
    (hop : Doomed (('[' :: cs).drop x.length)) : Doomed cs := by
  have hall : ∀ m ∈ Token.operatorNames, m.head? = some '[' →
      m = ['[', ']'] ∨ m = ['[', ']', '='] := by decide
  obtain ⟨hmem, hprefix⟩ := mem_operatorNames_of_methodName? rfl hname
  have hhead : x.head? = some '[' := by
    obtain ⟨_, _, _, rfl, heq, _⟩ := Token.begins_of_mem_operatorNames hmem hprefix
    cases heq
    rfl
  have hbehind {ds : List Char} (h : Doomed ds) : Doomed (']' :: ds) :=
    .behind (k := .rightBracket) (l := [']']) (by decide) rfl nofun nofun h
  rcases hall x hmem hhead with rfl | rfl
  · obtain ⟨ds, hds⟩ := hprefix
    cases hds
    exact hbehind hop
  · obtain ⟨ds, hds⟩ := hprefix
    cases hds
    exact hbehind (doomed_equals ds)

theorem not_isNameStart_of_integer {c : Char} (h : Token.isIntegerStart c = true) :
    Token.isNameStart c = false := by
  by_contra hc
  rw [Bool.not_eq_false, Token.isNameStart_iff] at hc
  have hstart : Token.start c = .className ∨ Token.start c = .word :=
    hc.imp Token.start_of_isUpper Token.start_of_word
  rcases Token.start_of_isIntegerStart h with hnumber | hnumber
  all_goals
    rw [hnumber] at hstart
    simp at hstart

/-- No attribute operator begins with a digit. -/
theorem kind_of_digit {c : Char} {cs l rest : List Char} {k : Kind}
    (hc : Digit.isDigit 10 c = true) (h : Tiles (c :: cs) [plain k l] rest) : k = .integer := by
  have hinteger : Token.isIntegerStart c = true := by simp [Token.isIntegerStart, hc]
  have hstart := Token.start_of_digit hc
  obtain ⟨a, hscan, heq⟩ := Option.map_eq_some_iff.mp (Tiles.singleton_iff.mp h)
  rw [List.dropWhile_cons_of_neg (by simp [Token.not_isBlank_of_isIntegerStart hinteger])] at hscan
  obtain ⟨k', l'⟩ := a
  cases heq
  rcases Token.mem_lexemes_cons.mp (Token.mem_of_longest hscan) with ⟨hmem, hprefix⟩ | hscan
  · rcases Token.start_of_operator hmem hprefix with h | ⟨h, _⟩
    all_goals
      rw [hstart] at h
      cases h
  · rw [hstart] at hscan
    obtain ⟨_, _, heq⟩ := Option.map_eq_some_iff.mp hscan
    cases heq
    rfl

/-- The sign of an integer is no name with an attribute operator behind it. -/
theorem not_operator_of_integer? {c : Char} {cs x y l rest : List Char} {k : Kind}
    (hname : methodName? (c :: cs) = some x) (hinteger : Token.integer? (c :: cs) = some y)
    (hop : Tiles ((c :: cs).drop x.length) [plain k l] rest) : k = .integer := by
  have hdigits : ∀ m ∈ Token.operatorNames, Digit.isDigit 10 (m.headD '@') = false := by decide
  have hsigns : ∀ m ∈ Token.operatorNames, m.headD '@' = '+' ∨ m.headD '@' = '-' →
      m.tail = [] ∨ m.tail = ['@'] := by decide
  obtain ⟨_, _, _, _, heq, _, hc⟩ := Token.begins_integer hinteger
  cases heq
  obtain ⟨hmem, hprefix⟩ := mem_operatorNames_of_methodName? (not_isNameStart_of_integer hc) hname
  obtain ⟨tail, rfl⟩ : ∃ tail, x = c :: tail := by
    obtain ⟨_, tail, _, rfl, heq, _⟩ := Token.begins_of_mem_operatorNames hmem hprefix
    cases heq
    exact ⟨tail, rfl⟩
  have hnot : Digit.isDigit 10 c = false := hdigits _ hmem
  have hsign : c = '+' ∨ c = '-' := by
    simpa [Token.isIntegerStart, hnot] using hc
  have hunsigned : ∃ digits, Token.unsigned? cs = some digits := by
    rcases hsign with rfl | rfl
    all_goals
      obtain ⟨digits, hdigits, _⟩ := Option.map_eq_some_iff.mp hinteger
      exact ⟨digits, hdigits⟩
  obtain ⟨digits, hunsigned⟩ := hunsigned
  obtain ⟨d, _, ds, _, rfl, _, hd⟩ := Token.begins_unsigned hunsigned
  have htail : tail = [] ∨ tail = ['@'] := hsigns _ hmem hsign
  rcases htail with rfl | rfl
  · exact kind_of_digit hd hop
  · obtain ⟨_, heq⟩ := hprefix
    cases heq
    exact absurd hd (by decide)

/-- Where a name with an attribute operator behind it can be read, regular scanning yields no
token that may follow a comma. -/
theorem doomed_of_name {cs x y : List Char} {k : Kind} (hname : methodName? cs = some x)
    (hlexeme : lexeme? cs = some (k, y)) (hk : beginsPrimary k = true ∨ k = .rightBrace)
    {k' : Kind} {l rest : List Char} (hk' : k'.isAttributeOperator = true)
    (hop : Tiles (cs.drop x.length) [plain k' l] rest) : Doomed (cs.drop y.length) := by
  obtain ⟨c, ds, rfl⟩ := Token.exists_cons_of_lexeme? hlexeme
  have hdoomed := Doomed.operator hk' hop
  rcases Token.mem_lexemes.mp (Token.mem_of_longest hlexeme) with ⟨hmem, hprefix⟩ | ⟨hy, _⟩ |
    ⟨hy, _⟩ | ⟨hy, _⟩ | ⟨hy, _⟩ | ⟨hy, _⟩ | ⟨_, rfl⟩
  · have hall : ∀ a ∈ Token.operators, beginsPrimary a.2 = true ∨ a.2 = .rightBrace →
        a.1 = ['['] ∨ a.1 = ['\x7d'] := by decide
    rcases hall _ hmem hk with heq | heq
    · obtain rfl : y = ['['] := heq
      obtain ⟨rfl, _⟩ := List.cons_prefix_cons.mp hprefix
      exact doomed_of_bracket hname hdoomed
    · obtain rfl : y = ['\x7d'] := heq
      obtain ⟨rfl, _⟩ := List.cons_prefix_cons.mp hprefix
      exact absurd (head_mem_of_methodName? rfl hname) (by decide)
  · simp only [Token.variableName?, Option.ite_none_right_eq_some, Option.some.injEq] at hy
    obtain ⟨hc, rfl⟩ := hy
    rw [drop_length_takeWhile]
    exact doomed_of_word (Token.isNameStart_of_word hc) hname hdoomed
  · simp only [Token.className?, Option.ite_none_right_eq_some, Option.some.injEq] at hy
    obtain ⟨hc, rfl⟩ := hy
    rw [drop_length_takeWhile]
    exact doomed_of_word (Token.isNameStart_of_isUpper hc) hname hdoomed
  · obtain ⟨_, _, _, _, heq, _, hc⟩ := Token.begins_symbol hy
    cases heq
    obtain rfl := eq_of_beq hc
    exact absurd (head_mem_of_methodName? rfl hname) (by decide)
  · rw [not_operator_of_integer? hname hy hop] at hk'
    cases hk'
  · obtain ⟨_, _, _, _, heq, _, hc⟩ := Token.begins_string hy
    cases heq
    rcases Bool.or_eq_true_iff.mp hc with hc | hc
    all_goals
      obtain rfl := eq_of_beq hc
      exact absurd (head_mem_of_methodName? rfl hname) (by decide)
  · rcases hk with hk | hk <;> cases hk

/-! ## Tilings -/

/-- A text, from some terminal on, is tiled by terminals that may follow each other there. -/
structure Continues (t : Terminal) (cs : List Char) (ts : List Terminal) : Prop where
  chain : (t :: ts).IsChain Adjacent
  last : ∀ u ∈ ts.getLast?, u.request = .token
  tiles : ∃ rest, Tiles cs ts rest ∧ ∀ c ∈ rest, isBlank c = true

theorem Continues.tail {t u : Terminal} {cs behind : List Char} {us : List Terminal}
    (h : Continues t cs (u :: us)) (hu : Tiles cs [u] behind) : Continues u behind us where
  chain := (List.isChain_cons_cons.mp h.chain).2
  last v hv := by
    cases us with
    | nil => cases hv
    | cons w ws => exact h.last v (by rwa [List.getLast?_cons_cons])
  tiles := by
    obtain ⟨rest, htiles, hblank⟩ := h.tiles
    exact ⟨rest, (htiles.head_unique hu rfl).2, hblank⟩

theorem Continues.nil {cs : List Char} (hblank : ∀ c ∈ cs, isBlank c = true) (t : Terminal) :
    Continues t cs [] where
  chain := .singleton t
  last := nofun
  tiles := ⟨cs, .nil cs, hblank⟩

theorem Continues.cons {t u : Terminal} {blanks behind : List Char} {us : List Terminal}
    (hadjacent : Adjacent t u) (hblank : ∀ c ∈ blanks, isBlank c = true)
    (hscan : Token.scan? u.request (u.lexeme ++ behind) = some (u.kind, u.lexeme))
    (hlast : us = [] → u.request = .token) (h : Continues u behind us) :
    Continues t (blanks ++ (u.lexeme ++ behind)) (u :: us) where
  chain := .cons_cons hadjacent h.chain
  last v hv := by
    cases us with
    | nil =>
        cases hv
        exact hlast rfl
    | cons w ws => exact h.last v (by rwa [List.getLast?_cons_cons] at hv)
  tiles := by
    obtain ⟨rest, htiles, hrest⟩ := h.tiles
    exact ⟨rest, .cons hblank hscan htiles, hrest⟩

/-- Both a name and a token of regular scanning may follow a comma only, and then the token begins
a primary or closes the quantifier. -/
theorem kind_of_two_requests {t u v : Terminal} (hu : Adjacent t u) (hv : Adjacent t v)
    (hname : u.request = .name) (htoken : v.request = .token) :
    beginsPrimary v.kind = true ∨ v.kind = .rightBrace := by
  have ht : t.request = .token := by
    cases hrequest : t.request with
    | token => rfl
    | name =>
        rw [(hu.of_name hrequest).1] at hname
        cases hname
  have hangle : t.kind ≠ .leftAngle := by
    intro hkind
    rw [hv.of_angle ⟨ht, by simp [hkind]⟩] at htoken
    cases htoken
  have hcomma : t.kind = .comma := by
    by_contra hne
    rw [hu.of_other ht hangle hne] at hname
    cases hname
  exact hv.of_comma ⟨ht, by simp [hcomma]⟩ htoken

/-- At one place, not both a name and another token can be asked for. -/
theorem Continues.not_name {t u v : Terminal} {cs : List Char} {us vs : List Terminal}
    (hu : Continues t cs (u :: us)) (hv : Continues t cs (v :: vs)) (hname : u.request = .name) :
    v.request ≠ .token := by
  intro htoken
  obtain ⟨hut, hus⟩ := List.isChain_cons_cons.mp hu.chain
  obtain ⟨hvt, hvs⟩ := List.isChain_cons_cons.mp hv.chain
  have hkind := kind_of_two_requests hut hvt hname htoken
  obtain ⟨o, os, rfl⟩ : ∃ o os, us = o :: os := by
    cases us with
    | nil =>
        rw [hu.last u rfl] at hname
        cases hname
    | cons o os => exact ⟨o, os, rfl⟩
  have ho := (List.isChain_cons_cons.mp hus).1.of_name hname
  obtain ⟨rest, htiles, _⟩ := hu.tiles
  obtain ⟨rest', htiles', hblank⟩ := hv.tiles
  obtain ⟨behind, hread, hos⟩ := Tiles.cons_iff.mp htiles
  obtain ⟨behind', hread', hvs'⟩ := Tiles.cons_iff.mp htiles'
  obtain ⟨_, hop, _⟩ := Tiles.uncons_iff.mp hos
  rw [hname] at hread
  rw [htoken] at hread'
  obtain ⟨⟨k, x⟩, hscan, heq⟩ := Option.map_eq_some_iff.mp hread
  obtain ⟨⟨k', y⟩, hlexeme, heq'⟩ := Option.map_eq_some_iff.mp hread'
  cases heq
  cases heq'
  obtain rfl : k = .methodName := hut.name_kind rfl
  have hmethod : methodName? (cs.dropWhile isBlank) = some x := Token.methodName?_of_scan? hscan
  obtain ⟨_, k₂, l₂⟩ := o
  obtain rfl := ho.1
  refine not_doomed hvs rfl ?_ ?_ hvs' hblank (doomed_of_name hmethod hlexeme hkind ho.2 hop)
  · rintro rfl
    rcases hkind with hkind | hkind <;> cases hkind
  · rintro rfl
    rcases hkind with hkind | hkind <;> cases hkind

/-- Terminals that may follow each other tile a text in one way only. -/
theorem Continues.unique {t : Terminal} {cs : List Char} {us vs : List Terminal}
    (hu : Continues t cs us) (hv : Continues t cs vs) : us = vs := by
  induction us generalizing t cs vs with
  | nil =>
      obtain ⟨rest, htiles, hblank⟩ := hu.tiles
      obtain rfl := Tiles.nil_iff.mp htiles
      cases vs with
      | nil => rfl
      | cons v vs =>
          obtain ⟨_, htiles', _⟩ := hv.tiles
          exact absurd htiles' (not_tiles_of_blank hblank)
  | cons u us ih =>
      obtain ⟨rest, htiles, _⟩ := hu.tiles
      cases vs with
      | nil =>
          obtain ⟨_, htiles', hblank⟩ := hv.tiles
          obtain rfl := Tiles.nil_iff.mp htiles'
          exact absurd htiles (not_tiles_of_blank hblank)
      | cons v vs =>
          obtain ⟨_, htiles', _⟩ := hv.tiles
          obtain ⟨behind, hl, _⟩ := Tiles.uncons_iff.mp htiles
          have hrequest : v.request = u.request := by
            cases hrequest : u.request with
            | token =>
                cases hrequest' : v.request with
                | token => rfl
                | name => exact absurd hrequest (hv.not_name hu hrequest')
            | name =>
                cases hrequest' : v.request with
                | token => exact absurd hrequest' (hu.not_name hv hrequest)
                | name => rfl
          obtain ⟨rfl, _⟩ := htiles'.head_unique hl hrequest
          rw [ih (hu.tail hl) (hv.tail hl)]

end TreePattern.Grammar
