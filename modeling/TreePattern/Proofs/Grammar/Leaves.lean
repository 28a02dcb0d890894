import TreePattern.Proofs.Grammar.Lookahead

/-! Reading what has no pattern inside: scalars, operands of regular expressions and quantifiers. -/

namespace TreePattern.Pattern.Parser

open Grammar
open Token (Kind isBlank)
open Terminal (plain name)

variable {c c' : Cursor} {kind : Kind}

/-! ## Scalars and regular expressions -/

theorem scalarOf_eq_ok_iff {t : Token} {s : Scalar} :
    scalarOf t = .ok s ↔ IsScalar [plain t.kind t.lexeme] s := by
  obtain ⟨kind, l, offset⟩ := t
  constructor
  · intro h
    cases kind <;> simp only [scalarOf, reduceCtorEq, Except.ok.injEq] at h
    case integer =>
      split at h
      · rename_i n hn
        cases h
        exact .integer hn
      · cases h
    all_goals
      subst h
      constructor
  · rintro (h | _ | _ | _ | _ | _)
    · simp [scalarOf, h]
    all_goals rfl

theorem compile_eq_ok_iff {limit : Nat} {source : List Char} {flags : Regexp.Flags} {r : Regexp} :
    compile limit source flags = .ok r ↔ Regexp.compile? (.ofList source) flags limit = some r := by
  rw [compile]
  cases Regexp.compile? (.ofList source) flags limit <;> simp

theorem reads_operand (limit : Nat) (anchor : Anchor) :
    Reads (operand limit anchor) (IsOperand limit anchor) [] where
  sound {c c' p} h := by
    obtain ⟨_ | ⟨⟨kind, l, offset⟩, c₁⟩, hpeek, h⟩ := bind_eq_ok.mp h
    · cases h
    · obtain ⟨htiles, _⟩ := peek_eq_some hpeek
      simp only at h
      split at h
      · obtain ⟨r, hr, h⟩ := bind_eq_ok.mp h
        cases h
        exact ⟨_, .symbol (compile_eq_ok_iff.mp hr), htiles⟩
      · obtain ⟨r, hr, h⟩ := bind_eq_ok.mp h
        cases h
        exact ⟨_, .string (compile_eq_ok_iff.mp hr), htiles⟩
      · obtain ⟨r, hr, h⟩ := bind_eq_ok.mp h
        cases h
        exact ⟨_, .regexp (compile_eq_ok_iff.mp hr), htiles⟩
      · cases h
  complete {c ts p rest} h htiles _ := by
    cases h with
    | symbol h | string h | regexp h =>
        obtain ⟨offset, c₁, hpeek, hrest⟩ := peek_of_tiles htiles
        exact ⟨c₁, bind_eq_ok.mpr ⟨_, hpeek, bind_eq_ok.mpr ⟨_, compile_eq_ok_iff.mpr h, rfl⟩⟩,
          hrest⟩

/-! ## Quantifiers -/

theorem count_eq_ok {o : Option (Nat × Token)} (h : count c = .ok (o, c')) :
    ∃ ts, Optional IsCount ts (o.map (·.1)) ∧ c.Reaches ts c' := by
  obtain ⟨_ | ⟨⟨kind, l, offset⟩, c₁⟩, hpeek, h₁⟩ := bind_eq_ok.mp h
  · cases h₁
    exact ⟨[], .absent, .nil c⟩
  · simp only at h₁
    split at h₁
    · rename_i hkind
      obtain rfl : kind = .integer := hkind
      split at h₁
      · rename_i n hn
        split at h₁
        · rename_i hpos
          cases h₁
          exact ⟨_, .present (.numeral hn hpos), (peek_eq_some hpeek).1⟩
        · cases h₁
      · cases h₁
    · cases h₁
      exact ⟨[], .absent, .nil c⟩

theorem count_of_tiles {n : Option Nat} {ts : List Terminal} {rest : List Char}
    {kinds : List Kind} (h : Optional IsCount ts n) (htiles : Tiles c.rest ts rest)
    (hstops : Stops kinds rest) (hk : .integer ∈ kinds) :
    ∃ o c', count c = .ok (o, c') ∧ o.map (·.1) = n ∧ c'.rest = rest := by
  cases h with
  | absent =>
      obtain rfl := Tiles.nil_iff.mp htiles
      rcases hstops with hblank | ⟨k, l, rest, hne, hl⟩
      · exact ⟨none, c, bind_eq_ok.mpr ⟨_, peek_eq_none_iff.mpr hblank, rfl⟩, rfl, rfl⟩
      · obtain ⟨offset, c₁, hpeek, _⟩ := peek_of_tiles hl
        have hk : k ≠ .integer := fun heq => hne (heq ▸ hk)
        exact ⟨none, c, bind_eq_ok.mpr ⟨_, hpeek, by simp [hk, pure, Except.pure]⟩, rfl, rfl⟩
  | present h =>
      obtain ⟨hn, hpos⟩ := h
      obtain ⟨offset, c₁, hpeek, hrest⟩ := peek_of_tiles htiles
      exact ⟨_, c₁, bind_eq_ok.mpr ⟨_, hpeek, by simp [hn, hpos, pure, Except.pure]; rfl⟩, rfl,
        hrest⟩

theorem ofBounds?_eq_some_iff {min step : Nat} {max : Option Nat} {q : Quantifier} :
    Quantifier.ofBounds? min max step = some q ↔ q.min = min ∧ q.max = max ∧ q.step = step := by
  constructor
  · intro h
    unfold Quantifier.ofBounds? at h
    split at h
    · cases h
      exact ⟨rfl, rfl, rfl⟩
    · cases h
  · rintro ⟨rfl, rfl, rfl⟩
    exact dif_pos ⟨q.step_pos, q.min_le_max⟩

theorem closeBounds_eq_ok {min : Nat} {max : Option (Nat × Token)} {q : Quantifier}
    (h : closeBounds min max c = .ok (q, c')) :
    q.min = min ∧ q.max = max.map (·.1) ∧ q.step = 1 ∧
      ∃ l, c.Reaches [plain .rightBrace l] c' := by
  obtain ⟨⟨t, c₁⟩, hexpect, h₁⟩ := bind_eq_ok.mp h
  simp only at h₁
  split at h₁
  · rename_i hq
    cases h₁
    obtain ⟨hmin, hmax, hstep⟩ := ofBounds?_eq_some_iff.mp hq
    exact ⟨hmin, hmax, hstep, _, expect_eq_ok hexpect⟩
  · cases h₁
  · cases h₁

theorem closeBounds_of_tiles {q : Quantifier} {max : Option (Nat × Token)} {l rest : List Char}
    (hmax : max.map (·.1) = q.max) (hstep : q.step = 1)
    (h : Tiles c.rest [plain .rightBrace l] rest) :
    ∃ c', closeBounds q.min max c = .ok (q, c') ∧ c'.rest = rest := by
  obtain ⟨t, c₁, hexpect, hrest⟩ := expect_of_tiles h
  refine ⟨c₁, bind_eq_ok.mpr ⟨_, hexpect, ?_⟩, hrest⟩
  have hq : Quantifier.ofBounds? q.min (max.map (·.1)) 1 = some q :=
    ofBounds?_eq_some_iff.mpr ⟨rfl, hmax.symm, hstep⟩
  simp [hq, pure, Except.pure]

/-- Behind a brace, the words for the even and the odd numbers are looked for first. -/
theorem braced_of_stops {kinds : List Kind} (hstops : Stops kinds c.rest)
    (heven : .evenKeyword ∈ kinds) (hodd : .oddKeyword ∈ kinds) :
    braced c = (do
      let (min, c) ← count c
      let (comma, c) ← eat .comma c
      if comma then
        let (max, c) ← count c
        closeBounds ((min.map (·.1)).getD 0) max c
      else
        match min with
        | some (n, _) => closeBounds n min c
        | none => throw (misplaced (← peek c))) := by
  rw [braced, eat_of_stops hstops heven]
  change (eat .oddKeyword c >>= _) = _
  rw [eat_of_stops hstops hodd]
  rfl

theorem sound_braced {q : Quantifier} (h : braced c = .ok (q, c')) :
    ∃ ts, IsBraced ts q ∧ c.Reaches ts c' := by
  obtain ⟨⟨isEven, c₁⟩, heven, h₁⟩ := bind_eq_ok.mp h
  rcases eat_eq_ok heven with ⟨rfl, l, hl⟩ | ⟨rfl, rfl⟩
  · obtain ⟨⟨t, c₂⟩, hclose, h₂⟩ := bind_eq_ok.mp h₁
    cases h₂
    exact ⟨_, .even l t.lexeme, hl.append (expect_eq_ok hclose)⟩
  obtain ⟨⟨isOdd, c₂⟩, hodd, h₂⟩ := bind_eq_ok.mp h₁
  rcases eat_eq_ok hodd with ⟨rfl, l, hl⟩ | ⟨rfl, rfl⟩
  · obtain ⟨⟨t, c₃⟩, hclose, h₃⟩ := bind_eq_ok.mp h₂
    cases h₃
    exact ⟨_, .odd l t.lexeme, hl.append (expect_eq_ok hclose)⟩
  obtain ⟨⟨min, c₃⟩, hcount, h₃⟩ := bind_eq_ok.mp h₂
  obtain ⟨ts, hts, htiles⟩ := count_eq_ok hcount
  obtain ⟨⟨comma, c₄⟩, hcomma, h₄⟩ := bind_eq_ok.mp h₃
  rcases eat_eq_ok hcomma with ⟨rfl, l, hl⟩ | ⟨rfl, rfl⟩
  · obtain ⟨⟨max, c₅⟩, hcount', h₅⟩ := bind_eq_ok.mp h₄
    obtain ⟨us, hus, htiles'⟩ := count_eq_ok hcount'
    obtain ⟨hmin, hmax, hstep, l', hl'⟩ := closeBounds_eq_ok h₅
    rw [← hmax] at hus
    exact ⟨_, .between l l' hts hus hmin hstep, htiles.append (hl.append (htiles'.append hl'))⟩
  · cases min with
    | none =>
        obtain ⟨_, _, hthrow⟩ := bind_eq_ok.mp h₄
        cases hthrow
    | some n =>
        obtain ⟨hmin, hmax, hstep, l', hl'⟩ := closeBounds_eq_ok h₄
        cases hts with
        | present hn =>
            obtain rfl : q = .exactly n.1 := Quantifier.ext hmin hmax hstep
            exact ⟨_, .exactly l' hn, htiles.append hl'⟩

theorem complete_braced {q : Quantifier} {ts : List Terminal} {rest : List Char}
    (h : IsBraced ts q) (htiles : Tiles c.rest ts rest) :
    ∃ c', braced c = .ok (q, c') ∧ c'.rest = rest := by
  cases h with
  | even l l' =>
      obtain ⟨behind, hl, hl'⟩ := Tiles.uncons_iff.mp htiles
      obtain ⟨c₁, heat, rfl⟩ := eat_of_tiles hl
      obtain ⟨t, c₂, hexpect, hrest⟩ := expect_of_tiles hl'
      exact ⟨c₂, bind_eq_ok.mpr ⟨_, heat, bind_eq_ok.mpr ⟨_, hexpect, rfl⟩⟩, hrest⟩
  | odd l l' =>
      obtain ⟨behind, hl, hl'⟩ := Tiles.uncons_iff.mp htiles
      have heven : eat .evenKeyword c = .ok (false, c) :=
        eat_of_stops (.of_tiles hl (by decide)) (List.mem_singleton_self _)
      obtain ⟨c₁, heat, rfl⟩ := eat_of_tiles hl
      obtain ⟨t, c₂, hexpect, hrest⟩ := expect_of_tiles hl'
      exact ⟨c₂, bind_eq_ok.mpr ⟨_, heven, bind_eq_ok.mpr ⟨_, heat,
        bind_eq_ok.mpr ⟨_, hexpect, rfl⟩⟩⟩, hrest⟩
  | @exactly ts n l hn =>
      obtain ⟨behind, hts, hl⟩ := Tiles.append_iff.mp htiles
      have hwords : Stops [.evenKeyword, .oddKeyword] c.rest := by
        cases hn
        exact .of_tiles hts (by decide)
      obtain ⟨o, c₁, hcount, ho, rfl⟩ :=
        count_of_tiles (.present hn) hts (.of_tiles hl (k := .rightBrace) (by decide))
          (List.mem_singleton_self _)
      obtain ⟨⟨n', t⟩, rfl, rfl⟩ := Option.map_eq_some_iff.mp ho
      have hcomma : eat .comma c₁ = .ok (false, c₁) :=
        eat_of_stops (.of_tiles hl (by decide)) (List.mem_singleton_self _)
      obtain ⟨c₂, hclose, hrest⟩ := closeBounds_of_tiles (q := .exactly n')
        (rfl : (some (n', t)).map (·.1) = _) rfl hl
      rw [braced_of_stops hwords (by decide) (by decide)]
      exact ⟨c₂, bind_eq_ok.mpr ⟨_, hcount, bind_eq_ok.mpr ⟨_, hcomma, hclose⟩⟩, hrest⟩
  | @between ts us min q l l' hmin hmax hq hstep =>
      obtain ⟨behind, hts, htail⟩ := Tiles.append_iff.mp htiles
      obtain ⟨behind', hl, htail'⟩ := Tiles.uncons_iff.mp htail
      obtain ⟨behind'', hus, hl'⟩ := Tiles.append_iff.mp htail'
      have hwords : Stops [.evenKeyword, .oddKeyword] c.rest := by
        cases hmin with
        | absent => exact .of_tiles htiles (by decide)
        | present hn =>
            cases hn
            exact .of_tiles hts (by decide)
      obtain ⟨o, c₁, hcount, rfl, rfl⟩ :=
        count_of_tiles hmin hts (.of_tiles hl (by decide)) (List.mem_singleton_self _)
      obtain ⟨c₂, hcomma, rfl⟩ := eat_of_tiles hl
      obtain ⟨o', c₃, hcount', ho', rfl⟩ :=
        count_of_tiles hmax hus (.of_tiles hl' (by decide)) (List.mem_singleton_self _)
      obtain ⟨c₄, hclose, hrest⟩ := closeBounds_of_tiles ho' hstep hl'
      rw [braced_of_stops hwords (by decide) (by decide)]
      refine ⟨c₄, bind_eq_ok.mpr ⟨_, hcount, bind_eq_ok.mpr ⟨_, hcomma, ?_⟩⟩, hrest⟩
      exact bind_eq_ok.mpr ⟨_, hcount', hq ▸ hclose⟩

theorem quantifier_eq_ok {o : Option Quantifier} (h : quantifier c = .ok (o, c')) :
    ∃ ts, Optional IsQuantifier ts o ∧ c.Reaches ts c' := by
  obtain ⟨_ | ⟨⟨kind, l, offset⟩, c₁⟩, hpeek, h₁⟩ := bind_eq_ok.mp h
  · cases h₁
    exact ⟨[], .absent, .nil _⟩
  obtain ⟨hl, _⟩ := peek_eq_some hpeek
  cases kind
  case star =>
    cases h₁
    exact ⟨_, .present (.zeroOrMore l), hl⟩
  case plus =>
    cases h₁
    exact ⟨_, .present (.oneOrMore l), hl⟩
  case question =>
    cases h₁
    exact ⟨_, .present (.optional l), hl⟩
  case leftBrace =>
    obtain ⟨⟨q, c₂⟩, hbraced, h₂⟩ := bind_eq_ok.mp h₁
    cases h₂
    obtain ⟨ts, hts, htiles⟩ := sound_braced hbraced
    exact ⟨_, .present (.braced l hts), hl.append htiles⟩
  all_goals
    cases h₁
    exact ⟨[], .absent, .nil _⟩

/-- The kinds of the tokens that a quantifier begins with. -/
def quantifierKinds : List Kind := [.star, .plus, .question, .leftBrace]

theorem complete_quantifier {q : Quantifier} {ts : List Terminal} {rest : List Char}
    (h : IsQuantifier ts q) (htiles : Tiles c.rest ts rest) :
    ∃ c', quantifier c = .ok (some q, c') ∧ c'.rest = rest := by
  cases h with
  | zeroOrMore l | oneOrMore l | optional l =>
      obtain ⟨offset, c₁, hpeek, hrest⟩ := peek_of_tiles htiles
      exact ⟨c₁, bind_eq_ok.mpr ⟨_, hpeek, rfl⟩, hrest⟩
  | braced l h =>
      obtain ⟨behind, hl, hts⟩ := Tiles.uncons_iff.mp htiles
      obtain ⟨offset, c₁, hpeek, rfl⟩ := peek_of_tiles hl
      obtain ⟨c₂, hbraced, hrest⟩ := complete_braced h hts
      exact ⟨c₂, bind_eq_ok.mpr ⟨_, hpeek, bind_eq_ok.mpr ⟨_, hbraced, rfl⟩⟩, hrest⟩

theorem quantifier_of_stops (h : Stops quantifierKinds c.rest) : quantifier c = .ok (none, c) := by
  rcases h with hblank | ⟨k, l, rest, hne, hl⟩
  · exact bind_eq_ok.mpr ⟨_, peek_eq_none_iff.mpr hblank, rfl⟩
  · obtain ⟨offset, c₁, hpeek, _⟩ := peek_of_tiles hl
    refine bind_eq_ok.mpr ⟨_, hpeek, ?_⟩
    cases k <;> first | rfl | exact absurd (by decide) hne

theorem quantifier_of_tiles {o : Option Quantifier} {ts : List Terminal} {rest : List Char}
    {kinds : List Kind} (h : Optional IsQuantifier ts o) (htiles : Tiles c.rest ts rest)
    (hstops : Stops kinds rest) (hsub : quantifierKinds ⊆ kinds) :
    ∃ c', quantifier c = .ok (o, c') ∧ c'.rest = rest := by
  cases h with
  | absent =>
      obtain rfl := Tiles.nil_iff.mp htiles
      exact ⟨c, quantifier_of_stops (hstops.mono hsub), rfl⟩
  | present h => exact complete_quantifier h htiles

end TreePattern.Pattern.Parser
