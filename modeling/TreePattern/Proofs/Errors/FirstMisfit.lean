import TreePattern.Proofs.Errors.Patterns
import TreePattern.Proofs.Printing.RoundTrip

/-! Errors name the first token that does not fit: what stands before it can be completed to a
pattern, and no text with the token at this place is read. The one exception is found late: that the
second bound of a quantifier is below the first is reported only behind the closing brace. -/

namespace TreePattern

open Token (Kind isBlank)
open Terminal (plain name)

theorem Options.le_limit_of_check {options checked : Options}
    (h : options.check = .ok checked) : minRegexSizeLimit ≤ options.regexSizeLimit := by
  unfold Options.check at h
  split at h
  · cases h
  · split at h
    · cases h
    · omega

/-- The first terminal of a text begins behind the white space. -/
theorem Tiles.dropWhile_isBlank {cs rest : List Char} {u : Terminal} (h : Tiles cs [u] rest) :
    cs.dropWhile isBlank = u.lexeme ++ rest ∧
      ∃ c tail, u.lexeme = c :: tail ∧ isBlank c = false := by
  obtain ⟨_, blanks, hblank, rfl, hscan⟩ := Terminal.read?_eq_some_iff.mp (singleton_iff.mp h)
  obtain ⟨c, tail, _, hl, _, _, hc⟩ := Token.begins_scan hscan
  have hc' : isBlank c = false := by simpa using hc
  rw [Terminal.dropWhile_isBlank hblank, hl, List.cons_append,
    List.dropWhile_cons_of_neg (by simp [hc'])]
  exact ⟨rfl, c, tail, rfl, hc'⟩

namespace Grammar

variable {limit levels : Nat} {us : List Terminal}

theorem Adjacent.settled {t u : Terminal} (h : Adjacent t u) : t.Settled u := by
  rintro (hname | hequals)
  · exact (h.of_name hname.1).1
  · cases hrequest : t.request with
    | name => exact (h.of_name hrequest).1
    | token => exact h.of_other hrequest (by simp [hequals]) (by simp [hequals])

theorem Viable.settled (h : Viable (IsExpression limit levels) us) :
    us.IsChain Terminal.Settled := by
  obtain ⟨vs, p, hderives, _⟩ := h
  exact hderives.phrase.chain.left_of_append.imp fun _ _ => Adjacent.settled

theorem Resumable.settled (h : Resumable (IsExpression limit levels) us) :
    us.IsChain Terminal.Settled := by
  rcases h with h | @⟨us, ns, ms, m, n, l, l', hn, hm, hlt, h⟩
  · exact h.settled
  · obtain ⟨b, rfl⟩ := hm.exists_eq
    have hsplit : us ++ plain .leftBrace l :: (ns ++ plain .comma l' :: [plain .integer b]) =
        us ++ plain .leftBrace l :: (ns ++ [plain .comma l']) ++ [plain .integer b] := by
      simp
    rw [hsplit]
    refine h.settled.append (.singleton _) fun t _ u hu _ => ?_
    cases hu
    rfl

/-- The second bound is the last terminal. -/
theorem Reversed.exists_concat {α : Type} {R : List Terminal → α → Prop} (h : Reversed R us) :
    ∃ vs b, us = vs ++ [plain .integer b] := by
  obtain @⟨us, ns, ms, m, n, l, l', hn, hm, hlt, h⟩ := h
  obtain ⟨b, rfl⟩ := hm.exists_eq
  exact ⟨us ++ plain .leftBrace l :: (ns ++ [plain .comma l']), b, by simp⟩

end Grammar

namespace Pattern

open Grammar

variable {options : Options}

/-- Some continuation of the text is read as a pattern. -/
def Completable (options : Options) (cs : List Char) : Prop :=
  ∃ suffix p, parse options (.ofList (cs ++ suffix)) = .ok p

/-- The text ends behind the second bound of a quantifier in braces, which is below the first. -/
def EndsReversed (options : Options) (cs : List Char) : Prop :=
  ∃ us rest, Tiles cs us rest ∧ (∀ c ∈ rest, isBlank c = true) ∧
    Reversed (IsExpression options.regexSizeLimit options.maxDepth) us

/-! ## Completing a text -/

/-- White space and a sequence of terminals that may stand behind `us`. -/
theorem tiles_completion {us vs : List Terminal} {p : Pattern} {blanks : List Char}
    (h : IsExpression options.regexSizeLimit options.maxDepth (us ++ vs) p)
    (hvs : ∀ t ∈ vs, t.Stands) (hblank : ∀ c ∈ blanks, isBlank c = true) :
    ∃ suffix rest, Tiles (blanks ++ ' ' :: suffix) vs rest ∧ ∀ c ∈ rest, isBlank c = true := by
  have hblank' : ∀ c ∈ blanks ++ [' '], isBlank c = true :=
    List.forall_mem_append.mpr ⟨hblank, List.forall_mem_singleton.mpr rfl⟩
  obtain ⟨ts, t, hts⟩ : ∃ ts t, plain .pipe [] :: us = ts ++ [t] :=
    ⟨_, _, (List.dropLast_append_getLast (List.cons_ne_nil _ _)).symm⟩
  have hchain : (t :: vs).IsChain Adjacent := by
    have hpipe := h.phrase.chain_pipe
    rw [← List.cons_append, hts, List.append_assoc] at hpipe
    exact hpipe.right_of_append
  have hlast : ∀ u ∈ vs.getLast?, u.request = .token := by
    intro u hu
    refine (h.phrase.last u ?_).1
    rw [List.getLast?_append, hu]
    rfl
  obtain ⟨rest, htiles, hrest⟩ := Piece.tiles_spaced hblank' hchain hlast hvs
  rw [List.append_assoc] at htiles
  exact ⟨_, rest, htiles, hrest⟩

theorem endsBefore_of_phrase {First : Terminal → Prop} {us vs : List Terminal} {cs rest : List Char}
    (h : Phrase First (us ++ vs)) (htiles : Tiles cs vs rest) : Tiles.EndsBefore us cs := by
  have hnext {t : Terminal} (ht : [t] <:+ us) (hend : ¬ Regular isEnd t) :
      ∃ v vs', vs = v :: vs' ∧ Adjacent t v := by
    obtain ⟨ws, rfl⟩ := ht
    cases vs with
    | nil => exact absurd (h.last t (by simp)) hend
    | cons v vs =>
        have hchain := h.chain
        rw [List.append_assoc] at hchain
        exact ⟨v, vs, rfl, (List.isChain_cons_cons.mp hchain.right_of_append).1⟩
  constructor
  · intro t ht hname
    obtain ⟨v, vs, rfl, hadjacent⟩ := hnext ht fun hend => by
      have hrequest := hend.1
      rw [hname.1] at hrequest
      cases hrequest
    obtain ⟨hv, hk⟩ := hadjacent.of_name hname.1
    rw [Token.operatorFollows_of_tiles htiles hv, hk]
  · intro t u htu hname hequals
    obtain ⟨v, vs, rfl, hadjacent⟩ := hnext (List.IsSuffix.trans ⟨[t], rfl⟩ htu) fun hend => by
      have hk := hend.2
      rw [hequals] at hk
      cases hk
    obtain ⟨ws, rfl⟩ := htu
    have hchain := h.chain
    rw [List.append_assoc] at hchain
    have hu := ((List.isChain_cons_cons.mp hchain.right_of_append).1.of_name hname.1).1
    have hv := hadjacent.of_other hu (by simp [hequals]) (by simp [hequals])
    rw [Token.operatorFollows_of_tiles htiles hv, hadjacent.of_token hu hv]

theorem completable_of_viable {w x blanks : List Char} {us : List Terminal}
    (htiles : Tiles (w ++ x) us x) (hblank : ∀ c ∈ blanks, isBlank c = true)
    (h : Viable (IsExpression options.regexSizeLimit options.maxDepth) us) :
    Completable options (w ++ blanks) := by
  obtain ⟨vs, p, hderives, hvs⟩ := h
  obtain ⟨suffix, rest, hsuffix, hrest⟩ := tiles_completion hderives hvs hblank
  have hhead : ∀ c ∈ (blanks ++ ' ' :: suffix).head?, isBlank c = true := by
    cases blanks with
    | nil =>
        rintro _ ⟨⟩
        rfl
    | cons b blanks => exact fun c hc => hblank c (List.mem_of_mem_head? (by simpa using hc))
  have hus := htiles.cut hhead (Viable.settled ⟨vs, p, hderives, hvs⟩)
    (endsBefore_of_phrase hderives.phrase hsuffix)
  refine ⟨' ' :: suffix, p, parse_of_derivation hderives ?_ hrest⟩
  rw [String.toList_ofList, List.append_assoc]
  exact hus.append hsuffix

/-! ## Places of errors -/

theorem endsBefore_concat {us : List Terminal} {u : Terminal} (hu : ¬ u.IsName)
    (hequals : ∀ t ∈ us.getLast?, t.IsName → u.kind ≠ .equals) (cs : List Char) :
    Tiles.EndsBefore (us ++ [u]) cs where
  name t ht hname := by
    obtain ⟨ws, heq⟩ := ht
    obtain ⟨_, heq⟩ := List.append_inj' heq rfl
    cases heq
    exact absurd hname hu
  equals t v htv hname hk := by
    obtain ⟨ws, heq⟩ := htv
    have hconcat : ws ++ [t] ++ [v] = us ++ [u] := by simpa using heq
    obtain ⟨rfl, hv⟩ := List.append_inj' hconcat rfl
    obtain rfl := List.singleton_inj.mp hv
    exact absurd hk (hequals t (by simp) hname)

theorem completable_or_endsReversed {w x blanks : List Char} {us : List Terminal}
    (htiles : Tiles (w ++ x) us x) (hblank : ∀ c ∈ blanks, isBlank c = true)
    (h : Resumable (IsExpression options.regexSizeLimit options.maxDepth) us) :
    Completable options (w ++ blanks) ∨ EndsReversed options (w ++ blanks) := by
  have hsettled := h.settled
  rcases h with h | h
  · exact .inl (completable_of_viable htiles hblank h)
  · have hends : Tiles.EndsBefore us blanks := by
      obtain ⟨zs, b, rfl⟩ := h.exists_concat
      exact endsBefore_concat (by simp [Terminal.IsName, plain]) (by simp [plain]) blanks
    have hcut := htiles.cut (fun c hc => hblank c (List.mem_of_mem_head? hc)) hsettled hends
    exact .inr ⟨us, blanks, hcut, hblank, h⟩

/-- Where a cursor stands, seen from the text. -/
theorem exists_front {cs : List Char} {us : List Terminal} {c : Cursor}
    (h : (Cursor.start cs).Reaches us c) : ∃ w blanks, (∀ c ∈ blanks, isBlank c = true) ∧
      Tiles (w ++ c.rest) us c.rest ∧ cs = w ++ blanks ++ c.rest.dropWhile isBlank ∧
        Cursor.utf8Length (w ++ blanks) = c.skipBlank.offset := by
  obtain ⟨w, hw⟩ := h.tiles.exists_append
  have hsplit : cs = w ++ c.rest.takeWhile isBlank ++ c.rest.dropWhile isBlank := by
    rw [List.append_assoc, List.takeWhile_append_dropWhile]
    exact hw
  refine ⟨w, c.rest.takeWhile isBlank, fun a ha => List.mem_takeWhile_imp ha, hw ▸ h.tiles,
    hsplit, ?_⟩
  have hlength : Cursor.utf8Length cs = c.offset + Cursor.utf8Length c.rest := by
    simpa [Cursor.start] using h.offset.symm
  have hskip : c.skipBlank.offset + Cursor.utf8Length (c.rest.dropWhile isBlank) =
      c.offset + Cursor.utf8Length c.rest := by
    rw [← Cursor.rest_skipBlank]
    exact Cursor.offset_advance c _
  rw [hsplit, Cursor.utf8Length_append] at hlength
  omega

theorem not_parse_of_fails {w x : List Char} {us : List Terminal} (htiles : Tiles (w ++ x) us x)
    (hsettled : us.IsChain Terminal.Settled) {y : List Char}
    (hy : ∀ c ∈ y.head?, isBlank c = true) (hends : Tiles.EndsBefore us y)
    (hfails : Parser.Fails (Parser.whole options) us) (p : Pattern) :
    parse options (.ofList (w ++ y)) ≠ .ok p := by
  intro hparse
  have hcut := htiles.cut hy hsettled hends
  obtain ⟨e, he⟩ := hfails (.start (w ++ y)) y hcut
  rw [Parser.parse_eq_map, String.toList_ofList, he] at hparse
  cases hparse

theorem parse_error_names_first_misfit (options : Options) (text : String) (e : PatternError)
    (hoptions : options.check = .ok options) (h : parse options text = .error e) :
    (∀ ch offset, e = .strayCharacter ch offset → ∃ front behind,
      text.toList = front ++ ch :: behind ∧ Cursor.utf8Length front = offset ∧ isBlank ch = false ∧
        (Completable options front ∨ EndsReversed options front)) ∧
      (∀ lexeme offset, e = .misplacedToken lexeme offset → ∃ front behind,
        text.toList = front ++ (lexeme ++ behind) ∧ Cursor.utf8Length front = offset ∧
          (∃ ch tail, lexeme = ch :: tail ∧ isBlank ch = false) ∧
            (∀ continuation p,
              parse options (.ofList (front ++ lexeme ++ ' ' :: continuation)) ≠ .ok p) ∧
              (Completable options front ∨ EndsReversed options front)) ∧
        (e = .endOfText → Completable options text.toList ∨ EndsReversed options text.toList) := by
  have hblames := Parser.blames_whole (Parser.viable_operand (Options.le_limit_of_check hoptions))
    (Parser.parse_eq_error_iff.mp h)
  cases hblames with
  | ending hreaches hus hend =>
      refine ⟨nofun, nofun, fun _ => ?_⟩
      obtain ⟨w, blanks, hblank, htiles, hsplit, _⟩ := exists_front hreaches
      rw [List.dropWhile_eq_nil_iff.mpr hend, List.append_nil] at hsplit
      rw [hsplit]
      exact completable_or_endsReversed htiles hblank hus
  | stray hreaches hus hrest hoffset =>
      refine ⟨?_, nofun, nofun⟩
      rintro _ _ ⟨⟩
      obtain ⟨w, blanks, hblank, htiles, hsplit, hfront⟩ := exists_front hreaches
      rw [hrest] at hsplit
      exact ⟨w ++ blanks, _, hsplit, hfront.trans hoffset.symm,
        Cursor.not_isBlank_of_dropWhile hrest, completable_or_endsReversed htiles hblank hus⟩
  | @token us c' c'' u offset hreaches hus hu hoffset hjoins hkind hname hfails =>
      refine ⟨nofun, ?_, nofun⟩
      rintro _ _ ⟨⟩
      obtain ⟨w, blanks, hblank, htiles, hsplit, hfront⟩ := exists_front hreaches
      obtain ⟨hrest, hfirst⟩ := hu.tiles.dropWhile_isBlank
      rw [hrest] at hsplit
      refine ⟨w ++ blanks, c''.rest, hsplit, hfront.trans hoffset.symm, hfirst, fun y p => ?_,
        completable_or_endsReversed htiles hblank hus⟩
      have hsettled : (us ++ [u]).IsChain Terminal.Settled := by
        refine hus.settled.append (.singleton u) fun t ht v hv => ?_
        cases hv
        exact hjoins.last t ht
      have hwindow : Tiles (w ++ blanks ++ u.lexeme ++ c''.rest) (us ++ [u]) c''.rest := by
        rw [List.append_assoc, ← hsplit]
        exact hreaches.tiles.append hu.tiles
      refine not_parse_of_fails hwindow hsettled ?_ ?_ hfails p
      · rintro _ ⟨⟩
        rfl
      · exact endsBefore_concat (fun hisName => hkind hisName.2) hname _
  | integer | regexp | depth => exact ⟨nofun, nofun, nofun⟩

theorem names_first_misfit_behind_attribute :
    ({} : Options).check = .ok {} ∧ parse {} "Foo<a b>" = .error (.misplacedToken ['b'] 6) ∧
      ∃ front behind, "Foo<a b>".toList = front ++ (['b'] ++ behind) ∧
        Cursor.utf8Length front = 6 ∧ (∃ ch tail, ['b'] = ch :: tail ∧ isBlank ch = false) ∧
          (∀ continuation p,
            parse {} (.ofList (front ++ ['b'] ++ ' ' :: continuation)) ≠ .ok p) ∧
            (Completable {} front ∨ EndsReversed {} front) :=
  ⟨rfl, rfl, (parse_error_names_first_misfit {} "Foo<a b>" _ rfl rfl).2.1 _ _ rfl⟩

/-- The bounds are compared behind the closing brace only. -/
example : parse {} "[any\x7b3,2 any" = .error (.misplacedToken ['a', 'n', 'y'] 9) ∧
    parse {} "[any\x7b3,2\x7d]" = .error (.misplacedToken ['2'] 7) := ⟨rfl, rfl⟩

end Pattern

end TreePattern
