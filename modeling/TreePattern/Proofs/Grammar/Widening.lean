import TreePattern.Proofs.Errors.FirstMisfit

/-! White space between the tokens of a pattern. A text that is read as a pattern is still read as
the same one when more white space is put before, between and behind its terminals: where the
original ends up with other characters, the widened text goes on with white space, which cuts off no
word, and an attribute name ends where it did since the terminals behind it are the same. -/

namespace TreePattern

open Token (isBlank operatorFollows)
open Grammar (IsExpression Regular isEnd)

/-- The second text is the first one with more white space before, between and behind the
terminals. -/
inductive Widened : List Char → List Terminal → List Char → Prop where
  | nil {rest rest' : List Char} (hsub : rest.Sublist rest')
      (hblank : ∀ c ∈ rest', isBlank c = true) : Widened rest [] rest'
  | cons {blanks blanks' cs cs' : List Char} {t : Terminal} {ts : List Terminal}
      (hsub : blanks.Sublist blanks') (hblank : ∀ c ∈ blanks', isBlank c = true)
      (h : Widened cs ts cs') :
      Widened (blanks ++ (t.lexeme ++ cs)) (t :: ts) (blanks' ++ (t.lexeme ++ cs'))

/-- Where the two texts part, the second goes on with white space or ends. -/
theorem Widened.exists_cut {cs cs' : List Char} {ts : List Terminal} (h : Widened cs ts cs') :
    ∃ v x y, cs = v ++ x ∧ cs' = v ++ y ∧ ∀ c ∈ y.head?, isBlank c = true := by
  induction h with
  | @nil rest rest' hsub hblank =>
      exact ⟨[], rest, rest', rfl, rfl, fun c hc => hblank c (List.mem_of_mem_head? hc)⟩
  | @cons blanks blanks' cs cs' t ts hsub hblank _ ih =>
      by_cases heq : blanks = blanks'
      · subst heq
        obtain ⟨v, x, y, rfl, rfl, hy⟩ := ih
        exact ⟨blanks ++ (t.lexeme ++ v), x, y, by simp, by simp, hy⟩
      · cases blanks' with
        | nil => exact absurd (List.sublist_nil.mp hsub) heq
        | cons b blanks' =>
            refine ⟨[], _, _, rfl, rfl, ?_⟩
            rintro _ ⟨⟩
            exact hblank b List.mem_cons_self

namespace Tiles

variable {cs cs' rest rest' : List Char} {t : Terminal} {ts : List Terminal}

/-- Behind a name and behind an equals sign, the next terminal alone says whether an operator
follows. -/
theorem operatorFollows_congr (ht : t.IsName ∨ t.kind = .equals)
    (hchain : (t :: ts).IsChain Terminal.Settled)
    (hlast : ∀ u ∈ (t :: ts).getLast?, Regular isEnd u)
    (h : Tiles cs ts rest) (h' : Tiles cs' ts rest') :
    operatorFollows cs = operatorFollows cs' := by
  cases ts with
  | nil =>
      have hend := hlast t rfl
      rcases ht with ⟨hrequest, _⟩ | hkind
      · cases hrequest.symm.trans hend.1
      · have hk := hend.2
        rw [hkind] at hk
        cases hk
  | cons u us =>
      have hu := (List.isChain_cons_cons.mp hchain).1 ht
      rw [Token.operatorFollows_of_tiles h hu, Token.operatorFollows_of_tiles h' hu]

/-- No name takes up an equals sign behind it in one text and leaves it in the other. -/
theorem operatorFollows_congr_behind_equals (hname : t.IsName)
    (hchain : (t :: ts).IsChain Terminal.Settled)
    (hlast : ∀ u ∈ (t :: ts).getLast?, Regular isEnd u)
    (h : Tiles ('=' :: cs) ts rest) (h' : Tiles ('=' :: cs') ts rest') :
    operatorFollows cs = operatorFollows cs' := by
  cases ts with
  | nil => cases (hlast t rfl).1.symm.trans hname.1
  | cons u us =>
      obtain ⟨hsettled, hchain'⟩ := List.isChain_cons_cons.mp hchain
      have hu := hsettled (.inl hname)
      obtain ⟨hequals, hus⟩ := h.uncons_equals hu
      obtain ⟨_, hus'⟩ := h'.uncons_equals hu
      rw [List.getLast?_cons_cons] at hlast
      exact operatorFollows_congr (.inr hequals) hchain' hlast hus hus'

/-- A widened text has the same terminals, by induction on them from the last one on. -/
theorem widen (hchain : ts.IsChain Terminal.Settled) (hlast : ∀ u ∈ ts.getLast?, Regular isEnd u)
    (h : Tiles cs ts rest) (hwidened : Widened cs ts cs') :
    ∃ rest', Tiles cs' ts rest' ∧ ∀ c ∈ rest', isBlank c = true := by
  induction hwidened generalizing rest with
  | @nil _ rest' _ hblank => exact ⟨rest', .nil rest', hblank⟩
  | @cons blanks blanks' cs cs' t ts hsub hblank hwidened ih =>
      obtain ⟨behind, hread, htail⟩ := cons_iff.mp h
      have hblanks : ∀ c ∈ blanks, isBlank c = true := fun c hc => hblank c (hsub.subset hc)
      obtain ⟨hbegins, c, lexeme, hlexeme, hc⟩ := (singleton_iff.mpr hread).dropWhile_isBlank
      rw [Terminal.dropWhile_isBlank hblanks, hlexeme, List.cons_append,
        List.dropWhile_cons_of_neg (by simp [hc]), ← List.cons_append,
        List.append_cancel_left_eq] at hbegins
      subst hbegins
      obtain ⟨_, _, _, _, hscan⟩ := Terminal.read?_eq_some_iff.mp hread
      have hlast' : ∀ u ∈ ts.getLast?, Regular isEnd u := by
        cases ts with
        | nil => nofun
        | cons u us => rwa [List.getLast?_cons_cons] at hlast
      obtain ⟨rest', htail', hrest'⟩ := ih hchain.tail hlast' htail
      refine ⟨rest', .cons hblank ?_ htail', hrest'⟩
      have hname (hk : t.kind = .methodName) : t.IsName := by
        refine ⟨?_, hk⟩
        cases hrequest : t.request with
        | name => rfl
        | token => exact absurd hk (Terminal.kind_of_read? hread hrequest)
      obtain ⟨v, x, y, rfl, rfl, hy⟩ := hwidened.exists_cut
      refine Token.scan?_cut hy hscan (fun hk hfollows => ?_) fun hk w hw hfollows => ?_
      · rwa [← operatorFollows_congr (.inl (hname hk)) hchain hlast htail htail']
      · subst hw
        rw [List.cons_append] at htail htail'
        rwa [operatorFollows_congr_behind_equals (hname hk) hchain hlast htail htail']

end Tiles

namespace Pattern

/-- The terminals that a text is read from: they make up the text and denote the pattern. -/
structure ReadFrom (options : Options) (text : String) (ts : List Terminal) (p : Pattern) :
    Prop where
  derives : IsExpression options.regexSizeLimit options.maxDepth ts p
  tiles : ∃ rest, Tiles text.toList ts rest ∧ ∀ c ∈ rest, isBlank c = true

namespace ReadFrom

variable {options : Options} {text : String} {ts us : List Terminal} {p q : Pattern}

theorem continues (h : ReadFrom options text ts p) :
    Grammar.Continues (.plain .pipe []) text.toList ts :=
  ⟨h.derives.phrase.chain_pipe, fun t ht => (h.derives.phrase.last t ht).1, h.tiles⟩

theorem unique (h : ReadFrom options text ts p) (h' : ReadFrom options text us q) : us = ts :=
  h'.continues.unique h.continues

theorem parse_widened (h : ReadFrom options text ts p) {text' : String}
    (hwidened : Widened text.toList ts text'.toList) : parse options text' = .ok p := by
  obtain ⟨rest, htiles, -⟩ := h.tiles
  obtain ⟨rest', htiles', hblank'⟩ := htiles.widen
    (h.derives.phrase.chain.imp fun _ _ => Grammar.Adjacent.settled) h.derives.phrase.last hwidened
  exact parse_of_derivation h.derives htiles' hblank'

end ReadFrom

/-- White space between the tokens of a pattern does not matter: the terminals that it is read from
are determined by its text, and the text with more white space around them is read as the same
pattern. -/
theorem parse_of_widened (options : Options) (text : String) (p : Pattern)
    (h : parse options text = .ok p) : ∃ ts, ReadFrom options text ts p ∧
      (∀ us q, ReadFrom options text us q → us = ts) ∧
      ∀ text', Widened text.toList ts text'.toList → parse options text' = .ok p := by
  obtain ⟨ts, rest, hts, htiles, hblank⟩ := exists_derivation h
  have hread : ReadFrom options text ts p := ⟨hts, rest, htiles, hblank⟩
  exact ⟨ts, hread, fun us q => hread.unique, fun text' => hread.parse_widened⟩

/-- In front of an operator, an equals sign belongs to the name of a setter. -/
theorem parse_of_widened_setter : parse {} "A<a==nil>" =
      .ok (.node ⟨"A", [("a=", .scalar .nil)]⟩) ∧
    ∃ ts, ReadFrom {} "A<a==nil>" ts (.node ⟨"A", [("a=", .scalar .nil)]⟩) ∧
      (∀ us q, ReadFrom {} "A<a==nil>" us q → us = ts) ∧
      ∀ text', Widened "A<a==nil>".toList ts text'.toList →
        parse {} text' = .ok (.node ⟨"A", [("a=", .scalar .nil)]⟩) :=
  ⟨rfl, parse_of_widened {} "A<a==nil>" _ rfl⟩

end Pattern

end TreePattern
