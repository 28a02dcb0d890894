import TreePattern.Proofs.Grammar.Leaves

/-! The parser reads what the grammar derives. Every function of the parser is compared with the
relation of the grammar that has its name; the function of the whole pattern follows by induction
on the number of expressions inside each other. -/

namespace TreePattern

namespace Pattern.Parser

open Grammar
open Token (Kind isBlank)
open Terminal (plain name)

variable {c c' : Cursor}

/-! ## Patterns -/

section

variable {limit : Nat} {inner : Parser Pattern} {E : List Terminal → Pattern → Prop}

theorem reads_constraint (hinner : Reads inner E [.pipe, .leftAngle]) :
    Reads (constraint limit inner) (IsConstraint limit E) [.pipe, .leftAngle] where
  sound {c c' x} h := by
    obtain ⟨⟨a, c₁⟩, hname, h₁⟩ := bind_eq_ok.mp h
    obtain ⟨l, rfl, hl⟩ := attributeName_eq_ok hname
    obtain ⟨_ | ⟨⟨kind, l', offset⟩, c₂⟩, hpeek, h₂⟩ := bind_eq_ok.mp h₁
    · cases h₂
    obtain ⟨hl', _⟩ := peek_eq_some hpeek
    cases kind
    case equals =>
      obtain ⟨⟨p, c₃⟩, hp, h₃⟩ := bind_eq_ok.mp h₂
      cases h₃
      obtain ⟨ts, hts, htiles⟩ := hinner.sound hp
      exact ⟨_, .equals l l' hts, hl.append (hl'.append htiles)⟩
    case startsWith | endsWith | contains =>
      obtain ⟨⟨p, c₃⟩, hp, h₃⟩ := bind_eq_ok.mp h₂
      cases h₃
      obtain ⟨ts, hts, htiles⟩ := (reads_operand limit _).sound hp
      exact ⟨_, .matching l l' rfl hts, hl.append (hl'.append htiles)⟩
    all_goals
      obtain ⟨_, hp, _⟩ := bind_eq_ok.mp h₂
      cases hp
  complete {c ts x rest} h htiles hstops := by
    cases h with
    | @equals ts p l l' hp =>
        obtain ⟨behind, hl, htail⟩ := Tiles.uncons_iff.mp htiles
        obtain ⟨behind', hl', hts⟩ := Tiles.uncons_iff.mp htail
        obtain ⟨c₁, hname, rfl⟩ := attributeName_of_tiles hl
        obtain ⟨offset, c₂, hpeek, rfl⟩ := peek_of_tiles hl'
        obtain ⟨c₃, hinner', hrest⟩ := hinner.complete hp hts hstops
        exact ⟨c₃, bind_eq_ok.mpr ⟨_, hname, bind_eq_ok.mpr ⟨_, hpeek,
          bind_eq_ok.mpr ⟨_, hinner', rfl⟩⟩⟩, hrest⟩
    | @matching k anchor ts p l l' hop hp =>
        obtain ⟨behind, hl, htail⟩ := Tiles.uncons_iff.mp htiles
        obtain ⟨behind', hl', hts⟩ := Tiles.uncons_iff.mp htail
        obtain ⟨c₁, hname, rfl⟩ := attributeName_of_tiles hl
        obtain ⟨offset, c₂, hpeek, rfl⟩ := peek_of_tiles hl'
        obtain ⟨c₃, hoperand, hrest⟩ :=
          (reads_operand limit anchor).complete hp hts (hstops.mono (List.nil_subset _))
        refine ⟨c₃, bind_eq_ok.mpr ⟨_, hname, bind_eq_ok.mpr ⟨_, hpeek, ?_⟩⟩, hrest⟩
        cases k <;> cases hop <;> exact bind_eq_ok.mpr ⟨_, hoperand, rfl⟩

theorem reads_attributes (hinner : Reads inner E [.pipe, .leftAngle]) :
    Reads (attributes limit inner) (IsAttributes limit E) [.leftAngle] where
  sound {c c' x} h := by
    obtain ⟨⟨present, c₁⟩, heat, h₁⟩ := bind_eq_ok.mp h
    rcases eat_eq_ok heat with ⟨rfl, l, hl⟩ | ⟨rfl, rfl⟩
    · obtain ⟨⟨as, c₂⟩, has, h₂⟩ := bind_eq_ok.mp h₁
      obtain ⟨⟨t, c₃⟩, hclose, h₃⟩ := bind_eq_ok.mp h₂
      cases h₃
      obtain ⟨ts, hts, htiles⟩ :=
        (reads_separated (reads_constraint hinner) (by decide)).sound has
      exact ⟨_, .present l t.lexeme hts, hl.append (htiles.append (expect_eq_ok hclose))⟩
    · cases h₁
      exact ⟨[], .absent, .nil _⟩
  complete {c ts x rest} h htiles hstops := by
    cases h with
    | absent =>
        obtain rfl := Tiles.nil_iff.mp htiles
        exact ⟨c, bind_eq_ok.mpr ⟨_, eat_of_stops hstops (by decide), rfl⟩, rfl⟩
    | present l l' has =>
        obtain ⟨behind, hl, htail⟩ := Tiles.uncons_iff.mp htiles
        obtain ⟨behind', hts, hl'⟩ := Tiles.append_iff.mp htail
        obtain ⟨c₁, heat, rfl⟩ := eat_of_tiles hl
        obtain ⟨c₂, has', rfl⟩ := (reads_separated (reads_constraint hinner) (by decide)).complete
          has hts (.of_tiles hl' (by decide))
        obtain ⟨t, c₃, hclose, hrest⟩ := expect_of_tiles hl'
        exact ⟨c₃, bind_eq_ok.mpr ⟨_, heat, bind_eq_ok.mpr ⟨_, has',
          bind_eq_ok.mpr ⟨_, hclose, rfl⟩⟩⟩, hrest⟩

theorem reads_item (hinner : Reads inner E [.pipe, .leftAngle]) :
    Reads (item inner) (IsItem E) ([.pipe, .leftAngle] ++ quantifierKinds) where
  sound {c c' x} h := by
    obtain ⟨⟨p, c₁⟩, hp, h₁⟩ := bind_eq_ok.mp h
    obtain ⟨ts, hts, htiles⟩ := hinner.sound hp
    obtain ⟨⟨o, c₂⟩, hquantifier, h₂⟩ := bind_eq_ok.mp h₁
    obtain ⟨us, hus, htiles'⟩ := quantifier_eq_ok hquantifier
    cases hus with
    | absent =>
        cases h₂
        exact ⟨_, .one hts, List.append_nil ts ▸ htiles.append htiles'⟩
    | present hq =>
        cases h₂
        exact ⟨_, .many hts hq, htiles.append htiles'⟩
  complete {c ts x rest} h htiles hstops := by
    have hsub : quantifierKinds ⊆ [.pipe, .leftAngle] ++ quantifierKinds :=
      List.subset_append_right _ _
    cases h with
    | one hp =>
        obtain ⟨c₁, hp', rfl⟩ := hinner.complete hp htiles (hstops.mono (by simp))
        obtain ⟨c₂, hquantifier, hrest⟩ := quantifier_of_tiles .absent (.nil _) hstops hsub
        exact ⟨c₂, bind_eq_ok.mpr ⟨_, hp', bind_eq_ok.mpr ⟨_, hquantifier, rfl⟩⟩, hrest⟩
    | many hp hq =>
        obtain ⟨behind, hts, hus⟩ := Tiles.append_iff.mp htiles
        have hstops' : Stops [.pipe, .leftAngle] behind := by
          cases hq <;> exact .of_tiles hus (by decide)
        obtain ⟨c₁, hp', rfl⟩ := hinner.complete hp hts hstops'
        obtain ⟨c₂, hquantifier, hrest⟩ := quantifier_of_tiles (.present hq) hus hstops hsub
        exact ⟨c₂, bind_eq_ok.mpr ⟨_, hp', bind_eq_ok.mpr ⟨_, hquantifier, rfl⟩⟩, hrest⟩

theorem reads_items (hinner : Reads inner E [.pipe, .leftAngle])
    (hopens : ∀ {ts p}, E ts p → Opens ts) :
    Reads (items inner) (IsItems E) [] where
  sound {c c' xs} h := by
    obtain ⟨⟨isEmpty, c₁⟩, heat, h₁⟩ := bind_eq_ok.mp h
    rcases eat_eq_ok heat with ⟨rfl, l, hl⟩ | ⟨rfl, rfl⟩
    · cases h₁
      exact ⟨_, .nil l, hl⟩
    · obtain ⟨⟨xs', c₂⟩, hxs, h₂⟩ := bind_eq_ok.mp h₁
      obtain ⟨⟨t, c₃⟩, hclose, h₃⟩ := bind_eq_ok.mp h₂
      cases h₃
      obtain ⟨ts, hts, htiles⟩ :=
        (reads_separated (reads_item hinner) (by decide)).sound hxs
      exact ⟨_, .cons t.lexeme hts, htiles.append (expect_eq_ok hclose)⟩
  complete {c ts xs rest} h htiles hstops := by
    cases h with
    | nil l =>
        obtain ⟨c₁, heat, hrest⟩ := eat_of_tiles htiles
        exact ⟨c₁, bind_eq_ok.mpr ⟨_, heat, rfl⟩, hrest⟩
    | cons l hxs =>
        obtain ⟨behind, hts, hl⟩ := Tiles.append_iff.mp htiles
        obtain ⟨c₁, hxs', rfl⟩ := (reads_separated (reads_item hinner) (by decide)).complete
          hxs hts (.of_tiles hl (by decide))
        obtain ⟨t, c₂, hclose, hrest⟩ := expect_of_tiles hl
        have heat : eat .rightBracket c = .ok (false, c) := by
          obtain ⟨k, l, us, rfl, hk⟩ := hxs.opens (IsItem.opens hopens)
          refine eat_of_stops (.of_tiles hts ?_) (List.mem_singleton_self _)
          rintro (_ | ⟨_, ⟨⟩⟩)
          cases hk
        exact ⟨c₂, bind_eq_ok.mpr ⟨_, heat, bind_eq_ok.mpr ⟨_, hxs',
          bind_eq_ok.mpr ⟨_, hclose, rfl⟩⟩⟩, hrest⟩

theorem reads_primary (hinner : Reads inner E [.pipe, .leftAngle])
    (hopens : ∀ {ts p}, E ts p → Opens ts) :
    Reads (primary limit inner) (IsPrimary limit E) [.leftAngle] where
  sound {c c' p} h := by
    obtain ⟨_ | ⟨⟨kind, l, offset⟩, c₁⟩, hpeek, h₁⟩ := bind_eq_ok.mp h
    · cases h₁
    obtain ⟨hl, _⟩ := peek_eq_some hpeek
    cases kind
    case className =>
      obtain ⟨⟨as, c₂⟩, has, h₂⟩ := bind_eq_ok.mp h₁
      cases h₂
      obtain ⟨ts, hts, htiles⟩ := (reads_attributes hinner).sound has
      rw [Node.ofAttributes_eq]
      exact ⟨_, .node l hts, hl.append htiles⟩
    case leftBracket =>
      obtain ⟨⟨xs, c₂⟩, hxs, h₂⟩ := bind_eq_ok.mp h₁
      cases h₂
      obtain ⟨ts, hts, htiles⟩ := (reads_items hinner hopens).sound hxs
      exact ⟨_, .array l hts, hl.append htiles⟩
    case anyKeyword =>
      cases h₁
      exact ⟨_, .any l, hl⟩
    all_goals
      obtain ⟨s, hs, h₂⟩ := bind_eq_ok.mp h₁
      cases h₂
      exact ⟨_, .scalar (scalarOf_eq_ok_iff.mp hs), hl⟩
  complete {c ts p rest} h htiles hstops := by
    cases h with
    | any l =>
        obtain ⟨offset, c₁, hpeek, hrest⟩ := peek_of_tiles htiles
        exact ⟨c₁, bind_eq_ok.mpr ⟨_, hpeek, rfl⟩, hrest⟩
    | scalar hs =>
        have hscalar := hs
        cases hs
        all_goals
          obtain ⟨offset, c₁, hpeek, hrest⟩ := peek_of_tiles htiles
          exact ⟨c₁, bind_eq_ok.mpr ⟨_, hpeek, bind_eq_ok.mpr
            ⟨_, scalarOf_eq_ok_iff.mpr hscalar, rfl⟩⟩, hrest⟩
    | @node ts as l has =>
        obtain ⟨behind, hl, hts⟩ := Tiles.uncons_iff.mp htiles
        obtain ⟨offset, c₁, hpeek, rfl⟩ := peek_of_tiles hl
        obtain ⟨c₂, has', hrest⟩ := (reads_attributes hinner).complete has hts hstops
        rw [← Node.ofAttributes_eq]
        exact ⟨c₂, bind_eq_ok.mpr ⟨_, hpeek, bind_eq_ok.mpr ⟨_, has', rfl⟩⟩, hrest⟩
    | array l hxs =>
        obtain ⟨behind, hl, hts⟩ := Tiles.uncons_iff.mp htiles
        obtain ⟨offset, c₁, hpeek, rfl⟩ := peek_of_tiles hl
        obtain ⟨c₂, hxs', hrest⟩ :=
          (reads_items hinner hopens).complete hxs hts (hstops.mono (List.nil_subset _))
        exact ⟨c₂, bind_eq_ok.mpr ⟨_, hpeek, bind_eq_ok.mpr ⟨_, hxs', rfl⟩⟩, hrest⟩

end

/-! ## Whole patterns -/

theorem foldl_or_choice (p : Pattern) (qs ps : List Pattern) :
    ps.foldl Pattern.or (.choice p qs) = .choice p (qs ++ ps) := by
  induction ps generalizing qs with
  | nil => simp
  | cons q ps ih =>
      rw [List.foldl_cons, Pattern.or, ih, List.append_assoc, List.singleton_append]

/-- Joining primaries from the left makes one flat choice, as no primary is a choice itself. -/
theorem isChoice_iff {limit : Nat} {E : List Terminal → Pattern → Prop} {ts : List Terminal}
    {ps : List Pattern} {p : Pattern} (h : Separated .pipe (IsPrimary limit E) ts ps) :
    IsChoice ps p ↔ alternatives ps = p := by
  have hfirst : ∀ {us q r}, IsPrimary limit E us q → q.or r = .choice q [r] := by
    rintro us q r (_ | _ | _ | _) <;> rfl
  cases h with
  | last _ =>
      constructor
      · rintro ⟨⟩
        rfl
      · rintro rfl
        exact .single _
  | @more _ _ q qs _ hq hqs =>
      cases qs with
      | nil => cases hqs
      | cons r qs =>
          have hfold : alternatives (q :: r :: qs) = .choice q (r :: qs) := by
            rw [alternatives, List.foldl_cons, hfirst hq, foldl_or_choice, List.singleton_append]
          rw [hfold]
          constructor
          · rintro ⟨⟩
            rfl
          · rintro rfl
            exact .choice q r qs

/-- Expressions are read by induction on how many may stand inside each other. -/
theorem reads_expression (options : Options) (levels : Nat) :
    Reads (expression options levels) (IsExpression options.regexSizeLimit levels)
      [.pipe, .leftAngle] := by
  induction levels with
  | zero =>
      constructor
      · intro c c' p h
        cases h
      · intro c ts p rest h
        exact absurd h id
  | succ levels ih =>
      have hps : Reads
          (separated .pipe (primary options.regexSizeLimit (expression options levels)))
          (Separated .pipe (IsPrimary options.regexSizeLimit _)) [.pipe, .leftAngle] :=
        reads_separated (reads_primary ih IsExpression.opens) (by decide)
      constructor
      · intro c c' p h
        obtain ⟨⟨ps, c₁⟩, hread, h₁⟩ := bind_eq_ok.mp h
        cases h₁
        obtain ⟨ts, hts, htiles⟩ := hps.sound hread
        exact ⟨ts, ⟨ps, hts, (isChoice_iff hts).mpr rfl⟩, htiles⟩
      · rintro c ts p rest ⟨ps, hts, hchoice⟩ htiles hstops
        obtain ⟨c₁, hread, hrest⟩ := hps.complete hts htiles hstops
        obtain rfl := (isChoice_iff hts).mp hchoice
        exact ⟨c₁, bind_eq_ok.mpr ⟨_, hread, rfl⟩, hrest⟩

end Parser

theorem exists_derivation {options : Options} {text : String} {p : Pattern}
    (h : parse options text = .ok p) : ∃ ts rest,
      Grammar.IsExpression options.regexSizeLimit options.maxDepth ts p ∧
        Tiles text.toList ts rest ∧ ∀ c ∈ rest, Token.isBlank c = true := by
  obtain ⟨⟨q, c⟩, hread, h₁⟩ := Parser.bind_eq_ok.mp h
  obtain ⟨ts, hts, htiles⟩ := (Parser.reads_expression options options.maxDepth).sound hread
  obtain ⟨_ | ⟨t, c'⟩, hpeek, h₂⟩ := Parser.bind_eq_ok.mp h₁
  · cases h₂
    exact ⟨ts, c.rest, hts, htiles.tiles, Parser.peek_eq_none_iff.mp hpeek⟩
  · cases h₂

theorem parse_of_derivation {options : Options} {text : String} {p : Pattern} {ts : List Terminal}
    {rest : List Char}
    (hts : Grammar.IsExpression options.regexSizeLimit options.maxDepth ts p)
    (htiles : Tiles text.toList ts rest) (hblank : ∀ c ∈ rest, Token.isBlank c = true) :
    parse options text = .ok p := by
  obtain ⟨c, hread, rfl⟩ := (Parser.reads_expression options options.maxDepth).complete
    (c := .start text.toList) hts htiles (.inl hblank)
  exact Parser.bind_eq_ok.mpr ⟨_, hread, Parser.bind_eq_ok.mpr
    ⟨_, Parser.peek_eq_none_iff.mpr hblank, rfl⟩⟩

/-- A text is read as a pattern exactly if it is tiled by the terminals of a derivation that denotes
the pattern, with nothing but white space behind them. -/
theorem parse_eq_ok_iff (options : Options) (text : String) (p : Pattern) :
    parse options text = .ok p ↔ ∃ ts rest,
      Grammar.IsExpression options.regexSizeLimit options.maxDepth ts p ∧
        Tiles text.toList ts rest ∧ ∀ c ∈ rest, Token.isBlank c = true := by
  constructor
  · exact exists_derivation
  · rintro ⟨ts, rest, hts, htiles, hblank⟩
    exact parse_of_derivation hts htiles hblank

end Pattern

end TreePattern
