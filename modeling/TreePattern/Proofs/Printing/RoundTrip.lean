import TreePattern.Proofs.Grammar.Denoted
import TreePattern.Proofs.Grammar.Reading
import TreePattern.Proofs.Printing.Fusion
import TreePattern.Proofs.Printing.Restating

/-! Reading printed patterns. A pattern that has been read is read again from its text, with
indifferent regular expressions, exactly if the text runs no symbol together with what follows it.
-/

namespace TreePattern

open Terminal (plain)
open Grammar (Continues IsExpression Phrase Regular Restates)

/-- Phrases may follow a bar. -/
theorem Grammar.Phrase.chain_pipe {ts : List Terminal}
    (h : Phrase (Regular Grammar.beginsPrimary) ts) :
    (plain .pipe [] :: ts).IsChain Grammar.Adjacent := by
  obtain ⟨t, us, rfl, ht⟩ := h.first
  refine .cons_cons ?_ h.chain
  exact Grammar.adjacent_start (Grammar.regular_plain rfl []) (Grammar.regular_isStart ht) nofun

namespace Pattern

variable {options : Options} {text : String} {p q : Pattern}

theorem toList_toString (p : Pattern) : (toString p).toList = Piece.text p.pieces := by
  rw [text_pieces]
  exact String.toList_ofList

/-- The pieces of a pattern that has been read are terminals of a derivation. -/
theorem restates_of_parse (h : parse options text = .ok p) : ∃ ts,
    Restates (IsExpression options.regexSizeLimit options.maxDepth) ts p.pieces p.indifferent := by
  obtain ⟨ts, rest, hts, htiles, _⟩ := exists_derivation h
  exact ⟨ts, hts.restates htiles.scanned⟩

theorem wellFormed_of_parse (h : parse options text = .ok p) : WellFormed p := by
  obtain ⟨ts, rest, hts, _⟩ := exists_derivation h
  exact hts.wellFormed

/-- The text of a pattern is divided into what its pieces fuse to. -/
theorem continues_pieces (hphrase : Phrase (Regular Grammar.beginsPrimary)
      (p.pieces.map Piece.terminal)) (hstands : ∀ q ∈ p.pieces, q.terminal.Stands) :
    Continues (plain .pipe []) (toString p).toList (Piece.fuse p.pieces) := by
  have hblank : ∀ c ∈ ([] : List Char), Token.isBlank c = true := nofun
  rw [toList_toString]
  exact Piece.continues_fuse hblank hphrase.chain_pipe (fun t ht => (hphrase.last t ht).1) hstands

theorem continues_of_restates {ts : List Terminal} {limit levels : Nat}
    (hp : Restates (IsExpression limit levels) ts p.pieces q) :
    Continues (plain .pipe []) (toString p).toList (Piece.fuse p.pieces) :=
  continues_pieces hp.derives.phrase hp.stands

theorem parse_of_restates {ts : List Terminal}
    (hp : Restates (IsExpression options.regexSizeLimit options.maxDepth) ts p.pieces q)
    (hapart : Piece.Apart p.pieces) : parse options (toString p) = .ok q := by
  obtain ⟨rest, htiles, hblank⟩ := (continues_of_restates hp).tiles
  rw [Piece.fuse_of_apart hapart] at htiles
  exact parse_of_derivation hp.derives htiles hblank

/-- What is read from a text is derived from the terminals that the text is divided into. -/
theorem derives_of_continues {ts : List Terminal}
    (hts : Continues (plain .pipe []) text.toList ts) (h : parse options text = .ok p) :
    IsExpression options.regexSizeLimit options.maxDepth ts p ∧ ∀ t ∈ ts, Grammar.Scanned t := by
  obtain ⟨us, rest, hus, htiles, hblank⟩ := exists_derivation h
  have hphrase := hus.phrase
  have hcontinues : Continues (plain .pipe []) text.toList us :=
    ⟨hphrase.chain_pipe, fun t ht => (hphrase.last t ht).1, rest, htiles, hblank⟩
  obtain rfl := hcontinues.unique hts
  exact ⟨hus, htiles.scanned⟩

/-- What is read from the text of a pattern is derived from what its pieces fuse to. -/
theorem derives_fuse {ts : List Terminal} {limit levels : Nat} {p' : Pattern}
    (hp : Restates (IsExpression limit levels) ts p.pieces p')
    (hq : parse options (toString p) = .ok q) :
    IsExpression options.regexSizeLimit options.maxDepth (Piece.fuse p.pieces) q ∧
      ∀ t ∈ Piece.fuse p.pieces, Grammar.Scanned t :=
  derives_of_continues (continues_of_restates hp) hq

theorem apart_iff_of_parse (h : parse options text = .ok p) :
    Piece.Apart p.pieces ↔ ¬ HasFusion p := by
  obtain ⟨ts, hp⟩ := restates_of_parse h
  exact apart_pieces_iff (wellFormed_of_parse h) hp.stands

theorem parse_toString (h : parse options text = .ok p) (hfusion : ¬ HasFusion p) :
    parse options (toString p) = .ok p.indifferent := by
  obtain ⟨ts, hp⟩ := restates_of_parse h
  exact parse_of_restates hp ((apart_iff_of_parse h).mpr hfusion)

/-- A text that runs something together is read with fewer terminals than it was written with. -/
theorem length_pieces_lt (h : parse options text = .ok p) (hfusion : HasFusion p)
    (hq : parse options (toString p) = .ok q) : q.pieces.length < p.pieces.length := by
  obtain ⟨ts, hp⟩ := restates_of_parse h
  obtain ⟨hfuse, hscanned⟩ := derives_fuse hp hq
  have hnot : ¬ Piece.Apart p.pieces := fun hapart => (apart_iff_of_parse h).mp hapart hfusion
  calc q.pieces.length
      ≤ (Piece.fuse p.pieces).length := (hfuse.restates hscanned).length_le
    _ < p.pieces.length := Piece.length_fuse_lt hnot

/-- What is read again differs from what was printed, if something was run together. -/
theorem not_equal_of_hasFusion (h : parse options text = .ok p) (hfusion : HasFusion p)
    (hq : parse options (toString p) = .ok q) : q.equal p.indifferent ≠ true := by
  intro hequal
  have hlength := length_pieces_of_equal (wellFormed_of_parse hq) hequal
  rw [pieces_indifferent] at hlength
  have hlt := length_pieces_lt h hfusion hq
  omega

theorem equal_indifferent (h : parse options text = .ok p) :
    p.indifferent.equal p.indifferent = true := by
  obtain ⟨ts, hp⟩ := restates_of_parse h
  exact equal_refl hp.derives.wellFormed

/-! ## Round trips -/

/-- A pattern that has been read is read again from its text, with indifferent regular expressions,
exactly if the text runs nothing together. What is read again then has the same text. -/
theorem reads_back_iff (options : Options) (text : String) (p : Pattern)
    (h : parse options text = .ok p) :
    ((∃ q, parse options (toString p) = .ok q ∧ (q == p.indifferent) = true) ↔ ¬ HasFusion p) ∧
      ∀ q, parse options (toString p) = .ok q → (q == p.indifferent) = true →
        toString q = toString p := by
  have hnot : ∀ q, parse options (toString p) = .ok q → (q == p.indifferent) = true →
      ¬ HasFusion p := fun q hq hequal hfusion => not_equal_of_hasFusion h hfusion hq hequal
  refine ⟨⟨?_, fun hfusion => ?_⟩, fun q hq hequal => ?_⟩
  · rintro ⟨q, hq, hequal⟩
    exact hnot q hq hequal
  · exact ⟨p.indifferent, parse_toString h hfusion, equal_indifferent h⟩
  · have hparse := parse_toString h (hnot q hq hequal)
    rw [hq] at hparse
    cases hparse
    exact congrArg String.ofList (chars_indifferent p)

theorem reads_back_startsWith : ∃ r p, p = node ⟨"Foo", [("a", regexp .symbol r)]⟩ ∧
    parse {} "Foo<a ^= :b>" = .ok p ∧
      ((∃ q, parse {} (toString p) = .ok q ∧ (q == p.indifferent) = true) ↔ ¬ HasFusion p) ∧
        ∀ q, parse {} (toString p) = .ok q → (q == p.indifferent) = true →
          toString q = toString p := by
  have hr : (Regexp.compile? "\\Ab" {} Regexp.defaultSizeLimit).isSome = true := by decide +kernel
  exact ⟨Option.get _ hr, _, rfl, rfl, reads_back_iff {} "Foo<a ^= :b>" _ rfl⟩

/-- Without regular expressions, a pattern that has been read is read again as it is, exactly if its
text runs nothing together; otherwise not even an equal pattern is read. -/
theorem reads_back_self_iff (options : Options) (text : String) (p : Pattern)
    (h : parse options text = .ok p) (hregexp : ∀ kind r, ¬ IsPart (regexp kind r) p) :
    (parse options (toString p) = .ok p ↔ ¬ HasFusion p) ∧
      ((∃ q, parse options (toString p) = .ok q ∧ (q == p) = true) ↔ ¬ HasFusion p) := by
  have hself := indifferent_eq_self hregexp
  have hparse (hfusion : ¬ HasFusion p) : parse options (toString p) = .ok p := by
    have hagain := parse_toString h hfusion
    rwa [hself] at hagain
  have hequal : p.equal p = true := equal_refl (wellFormed_of_parse h)
  have hnot (q : Pattern) (hq : parse options (toString p) = .ok q) (hqp : (q == p) = true) :
      ¬ HasFusion p := by
    rw [← hself] at hqp
    exact fun hfusion => not_equal_of_hasFusion h hfusion hq hqp
  constructor
  · exact ⟨fun hp => hnot p hp hequal, hparse⟩
  · constructor
    · rintro ⟨q, hq, hqp⟩
      exact hnot q hq hqp
    · exact fun hfusion => ⟨p, hparse hfusion, hequal⟩

theorem reads_back_self_nested : ∃ p, p = array [.many .zeroOrMore (node ⟨"Foo", [("a", any)]⟩)] ∧
    parse {} "[Foo<a = any> {0,}]" = .ok p ∧ (∀ kind r, ¬ IsPart (regexp kind r) p) ∧
      (parse {} (toString p) = .ok p ↔ ¬ HasFusion p) ∧
        ((∃ q, parse {} (toString p) = .ok q ∧ (q == p) = true) ↔ ¬ HasFusion p) := by
  have hregexp : ∀ kind r, ¬ IsPart (regexp kind r)
      (array [.many .zeroOrMore (node ⟨"Foo", [("a", any)]⟩)]) := by
    simp [isPart_array, isPart_node, Item.pattern, isPart_any]
  exact ⟨_, rfl, rfl, hregexp, reads_back_self_iff {} "[Foo<a = any> {0,}]" _ rfl hregexp⟩

/-- A symbol with a question mark behind it is read as another symbol. -/
theorem not_reads_back_optional_symbol : ∃ p, parse {} "[:a ?]" = .ok p ∧
    (∀ kind r, ¬ IsPart (regexp kind r) p) ∧
      ¬ ∃ q, parse {} (toString p) = .ok q ∧ (q == p) = true := by
  have hread : parse {} (toString (array [.many .optional (scalar (.symbol "a"))])) =
      .ok (array [.one (scalar (.symbol "a?"))]) := rfl
  refine ⟨array [.many .optional (scalar (.symbol "a"))], rfl, ?_, ?_⟩
  · simp [isPart_array, Item.pattern, isPart_scalar]
  · rintro ⟨q, hq, hequal⟩
    rw [hread] at hq
    cases hq
    change equal _ _ = true at hequal
    simp [equal, equalItems, equalItem] at hequal

end Pattern

end TreePattern
