import TreePattern.Pattern.Matching
import TreePattern.Proofs.Nesting.Exact
import TreePattern.Proofs.Printing.Canonical
import TreePattern.Proofs.Printing.RoundTrip
import TreePattern.Proofs.Token.Integer

/-! Arrays of quantified wildcards as text. The text of a quantifier tells its bounds, but it tells
a step other than one only in the words for the even and the odd numbers. Main statement:
`Pattern.wildcards_read_back_iff` — what is read from the text of such an array has the same bounds
everywhere, and it is the array itself exactly if no other step is in it. -/

namespace TreePattern

open Token (Kind)
open Terminal (plain)
open Piece (tight)

namespace Grammar

variable {limit : Nat} {E : List Terminal → Pattern → Prop} {ts : List Terminal}

/-! ## Numerals of derivations -/

/-- A numeral is only accepted if it denotes a number of 64 bits. -/
def Readable (t : Terminal) : Prop :=
  t.kind = .integer → (Numeral.value? t.lexeme).isSome = true

theorem readable_plain {k : Kind} (hk : k ≠ .integer) (l : List Char) : Readable (plain k l) :=
  fun h => absurd h hk

theorem Separated.readable {α : Type} {separator : Kind} {One : List Terminal → α → Prop}
    {xs : List α} (hseparator : separator ≠ .integer)
    (hone : ∀ us x, One us x → ∀ t ∈ us, Readable t) (h : Separated separator One ts xs) :
    ∀ t ∈ ts, Readable t := by
  induction h with
  | last h => exact hone _ _ h
  | more l h _ ih =>
      simp only [List.forall_mem_append, List.forall_mem_cons]
      exact ⟨hone _ _ h, readable_plain hseparator l, ih⟩

theorem IsCount.readable {n : Nat} (h : IsCount ts n) : ∀ t ∈ ts, Readable t := by
  cases h with
  | numeral h hn => simp [Readable, plain, h]

theorem Optional.readable {n : Option Nat} (h : Optional IsCount ts n) : ∀ t ∈ ts, Readable t := by
  cases h with
  | absent => simp
  | present h => exact h.readable

theorem IsBraced.readable {q : Quantifier} (h : IsBraced ts q) : ∀ t ∈ ts, Readable t := by
  cases h with
  | even l l' | odd l l' => simp [Readable, plain]
  | exactly l h =>
      simp only [List.forall_mem_append, List.forall_mem_singleton]
      exact ⟨h.readable, readable_plain (by decide) l⟩
  | between l l' hmin hmax hq hstep =>
      simp only [List.forall_mem_append, List.forall_mem_cons]
      exact ⟨hmin.readable, readable_plain (by decide) l, hmax.readable,
        readable_plain (by decide) l', List.forall_mem_nil _⟩

theorem IsQuantifier.readable {q : Quantifier} (h : IsQuantifier ts q) : ∀ t ∈ ts, Readable t := by
  cases h with
  | zeroOrMore l | oneOrMore l | optional l => simp [Readable, plain]
  | braced l h => exact List.forall_mem_cons.mpr ⟨readable_plain (by decide) l, h.readable⟩

section

variable (hE : ∀ us p, E us p → ∀ t ∈ us, Readable t)
include hE

theorem IsConstraint.readable {a : String × Pattern} (h : IsConstraint limit E ts a) :
    ∀ t ∈ ts, Readable t := by
  cases h with
  | equals b l h =>
      simp only [List.forall_mem_cons]
      exact ⟨nofun, readable_plain (by decide) l, hE _ _ h⟩
  | @matching k anchor us p b l hop h =>
      have hk : k ≠ .integer := by
        rintro rfl
        cases hop
      have hus : ∀ t ∈ us, Readable t := by
        cases h <;> simp [Readable, plain]
      simp only [List.forall_mem_cons]
      exact ⟨nofun, readable_plain hk l, hus⟩

theorem IsItem.readable {x : Item Pattern} (h : IsItem E ts x) : ∀ t ∈ ts, Readable t := by
  cases h with
  | one h => exact hE _ _ h
  | many h hq => exact List.forall_mem_append.mpr ⟨hE _ _ h, hq.readable⟩

theorem IsAttributes.readable {as : List (String × Pattern)} (h : IsAttributes limit E ts as) :
    ∀ t ∈ ts, Readable t := by
  cases h with
  | absent => simp
  | present l l' h =>
      simp only [List.forall_mem_cons, List.forall_mem_append]
      exact ⟨readable_plain (by decide) l,
        h.readable (by decide) fun _ _ => IsConstraint.readable hE,
        readable_plain (by decide) l', List.forall_mem_nil _⟩

theorem IsPrimary.readable {p : Pattern} (h : IsPrimary limit E ts p) : ∀ t ∈ ts, Readable t := by
  cases h with
  | any l => simp [Readable, plain]
  | scalar h => cases h <;> simp_all [Readable, plain]
  | node l h => exact List.forall_mem_cons.mpr ⟨readable_plain (by decide) l, h.readable hE⟩
  | array l h =>
      refine List.forall_mem_cons.mpr ⟨readable_plain (by decide) l, ?_⟩
      cases h with
      | nil l' => simp [Readable, plain]
      | cons l' h =>
          simp only [List.forall_mem_append, List.forall_mem_singleton]
          exact ⟨h.readable (by decide) fun _ _ => IsItem.readable hE,
            readable_plain (by decide) l'⟩

end

/-- The numerals of an expression are accepted, by induction on the expressions inside. -/
theorem IsExpression.readable {levels : Nat} {p : Pattern} (h : IsExpression limit levels ts p) :
    ∀ t ∈ ts, Readable t := by
  induction levels generalizing ts p with
  | zero => exact absurd h id
  | succ levels ih =>
      obtain ⟨ps, hps, _⟩ := h
      exact hps.readable (by decide) fun _ _ => IsPrimary.readable fun _ _ => ih

/-! ## Pieces of quantifiers -/

/-- What stands between the braces of a quantifier. -/
theorem phrase_bracedPieces {ps : List Piece}
    (h : Phrase (Regular isStart) (ps.map Piece.terminal ++ [plain .rightBrace ['\x7d']])) :
    Phrase (Regular isLink) ((Quantifier.bracedPieces ps).map Piece.terminal) := by
  rw [Quantifier.bracedPieces, List.map_cons, List.map_append]
  refine h.cons (regular_plain rfl ['\x7b']) fun u hu => ?_
  apply adjacent_start (regular_plain rfl _) hu
  intro hcomma
  cases hcomma

theorem phrase_count (n : Nat) {us : List Terminal} (h : Phrase (Regular isLink) us) :
    Phrase (Regular beginsPrimary) (plain .integer (Numeral.ofNat n) :: us) :=
  (phrase_plain (k := .integer) rfl rfl (Numeral.ofNat n)).link h

/-- The pieces of a quantifier may follow an end, however large its bounds are. -/
theorem phrase_pieces (q : Quantifier) : Phrase (Regular isLink) (q.pieces.map Piece.terminal) := by
  have hbrace {isKind : Kind → Bool} (hkind : isKind .rightBrace = true) :
      Phrase (Regular isKind) [plain .rightBrace ['\x7d']] := phrase_plain hkind rfl _
  have hcount (n : Nat) := phrase_count n (hbrace rfl)
  have hbound (n : Nat) : Phrase (Regular fun k => beginsPrimary k || k == .rightBrace)
      [plain .integer (Numeral.ofNat n), plain .rightBrace ['\x7d']] := by
    apply (hcount n).mono
    intro u hu
    exact hu.mono fun _ hk => Bool.or_eq_true_iff.mpr (.inl hk)
  obtain ⟨min, max, step, hpos, hle⟩ := q
  simp only [Quantifier.pieces]
  split
  case h_1 | h_2 | h_3 => exact phrase_plain rfl rfl _
  case h_4 | h_5 => exact phrase_bracedPieces ((phrase_plain rfl rfl _).link (hbrace rfl))
  case h_6 =>
    exact phrase_bracedPieces ((phrase_count _ (phrase_comma rfl (hbrace rfl) _)).mono fun _ =>
      regular_isStart)
  case h_7 m _ =>
    split_ifs
    · exact phrase_bracedPieces ((hcount _).mono fun _ => regular_isStart)
    · exact phrase_bracedPieces (phrase_comma rfl (hbound m) _)
    · exact phrase_bracedPieces ((phrase_count _ (phrase_comma rfl (hbound m) _)).mono fun _ =>
        regular_isStart)

end Grammar

/-- Bounds whose numerals are accepted have 63 bits. -/
theorem Quantifier.le_of_readable {q : Quantifier}
    (h : ∀ p ∈ q.pieces, Grammar.Readable p.terminal) :
    q.min ≤ 2 ^ 63 - 1 ∧ ∀ m ∈ q.max, m ≤ 2 ^ 63 - 1 := by
  have hcount {n : Nat} (hn : Grammar.Readable (countPiece n).terminal) : n ≤ 2 ^ 63 - 1 := by
    have hsome := hn rfl
    change (Numeral.value? (Numeral.ofNat n)).isSome = true at hsome
    rw [Numeral.value?_eq_narrow?, Numeral.value_ofNat, Numeral.isSome_narrow?_iff] at hsome
    omega
  obtain ⟨min, max, step, hpos, hle⟩ := q
  simp only [pieces] at h
  split at h
  case h_1 | h_2 | h_3 | h_4 | h_5 => simp
  case h_6 =>
    have hmin : min ≤ 2 ^ 63 - 1 := hcount (h _ (by simp [bracedPieces]))
    exact ⟨hmin, by simp⟩
  case h_7 m _ =>
    have hmin : min ≤ m := hle m rfl
    have hm : m ≤ 2 ^ 63 - 1 := by
      split_ifs at h with heq hzero
      · subst heq
        exact hcount (h _ (by simp [bracedPieces]))
      · exact hcount (h _ (by simp [bracedPieces]))
      · exact hcount (h _ (by simp [bracedPieces]))
    simp
    omega

namespace Pattern

open Grammar (IsExpression IsItem Phrase Regular Restates)

variable {options : Options} {p : Pattern} {qs : List (Option Quantifier)}

/-! ## Wildcards -/

/-- A wildcard, for one element or for as many as a quantifier allows. -/
def wildcard : Option Quantifier → Item Pattern
  | none => .one any
  | some q => .many q any

def wildcards (qs : List (Option Quantifier)) : Pattern := array (qs.map wildcard)

theorem pattern_wildcard (q? : Option Quantifier) : (wildcard q?).pattern = any := by
  cases q? <;> rfl

theorem pieces_wildcards (qs : List (Option Quantifier)) : (wildcards qs).pieces =
    tight .leftBracket ['['] :: (Piece.comma.joined (qs.map (itemPieces ∘ wildcard)) ++
      [tight .rightBracket [']']]) := by
  rw [wildcards, pieces_array, List.map_map]

/-- What all the pieces of quantifiers have, and the other pieces of arrays of wildcards. -/
theorem forall_pieces_wildcards {P : Piece → Prop} (hleft : P (tight .leftBracket ['[']))
    (hright : P (tight .rightBracket [']'])) (hcomma : P Piece.comma)
    (hany : P (tight .anyKeyword "any".toList)) (h : ∀ q, some q ∈ qs → ∀ p ∈ q.pieces, P p) :
    ∀ p ∈ (wildcards qs).pieces, P p := by
  rw [pieces_wildcards]
  refine Piece.forall_bracketed hleft hright hcomma ?_
  rw [List.forall_mem_map]
  intro q? hq
  cases q? with
  | none => exact List.forall_mem_singleton.mpr hany
  | some q => exact List.forall_mem_cons.mpr ⟨hany, h q hq⟩

theorem stands_wildcards (qs : List (Option Quantifier)) :
    ∀ p ∈ (wildcards qs).pieces, p.terminal.Stands := by
  have hcomma : Piece.comma.terminal.Stands := Terminal.stands_operator (by decide)
  apply forall_pieces_wildcards (P := fun p => p.terminal.Stands)
  · exact Terminal.stands_operator (by decide)
  · exact Terminal.stands_operator (by decide)
  · exact hcomma
  · exact Terminal.stands_keyword (by decide) (by decide) rfl (by decide)
  · exact fun q _ => Grammar.stands_pieces q

/-- There are no symbols that could become longer. -/
theorem apart_wildcards (qs : List (Option Quantifier)) : Piece.Apart (wildcards qs).pieces := by
  apply Piece.apart_of_ne_symbol
  apply forall_pieces_wildcards (P := fun p => p.terminal.kind ≠ .symbol)
  · decide
  · decide
  · decide
  · decide
  · exact fun q _ => q.kind_ne_symbol

theorem phrase_itemPieces (q? : Option Quantifier) :
    Phrase (Regular Grammar.beginsPrimary) ((itemPieces (wildcard q?)).map Piece.terminal) := by
  have hany : Phrase (Regular Grammar.beginsPrimary) [plain .anyKeyword "any".toList] :=
    Grammar.phrase_plain rfl rfl _
  cases q? with
  | none => exact hany
  | some q => exact hany.link (Grammar.phrase_pieces q)

theorem phrase_wildcards (qs : List (Option Quantifier)) :
    Phrase (Regular Grammar.beginsPrimary) ((wildcards qs).pieces.map Piece.terminal) := by
  have hitems : Phrase (Regular Grammar.isStart)
      ((Piece.comma.joined (qs.map (itemPieces ∘ wildcard)) ++ [tight .rightBracket [']']]).map
        Piece.terminal) := by
    by_cases hnil : qs = []
    · subst hnil
      exact Grammar.phrase_plain rfl rfl _
    · have hjoined : Grammar.Separated .comma
          (fun ts q? => ts = (itemPieces (wildcard q?)).map Piece.terminal)
          ((Piece.comma.joined (qs.map (itemPieces ∘ wildcard))).map Piece.terminal) (qs.map id) :=
        Grammar.separated_joined rfl hnil fun q? _ => rfl
      rw [List.map_append]
      apply Grammar.phrase_bracketed _ hjoined
      intro us q? h
      rw [h]
      exact phrase_itemPieces q?
  rw [pieces_wildcards, List.map_cons]
  exact hitems.cons (Grammar.regular_plain rfl _) fun u hu =>
    Grammar.adjacent_start (Grammar.regular_plain rfl _) hu nofun

/-- The text of an array of wildcards is divided into its pieces, however large the bounds are. -/
theorem continues_wildcards (qs : List (Option Quantifier)) :
    Grammar.Continues (plain .pipe []) (toString (wildcards qs)).toList
      ((wildcards qs).pieces.map Piece.terminal) := by
  have hcontinues := continues_pieces (phrase_wildcards qs) (stands_wildcards qs)
  rwa [Piece.fuse_of_apart (apart_wildcards qs)] at hcontinues

/-! ## What is read from the text -/

/-- The array that the text stands for. -/
def writtenWildcards (qs : List (Option Quantifier)) : Pattern :=
  wildcards (qs.map (Option.map Quantifier.written))

theorem nesting_writtenWildcards (qs : List (Option Quantifier)) :
    (writtenWildcards qs).nesting = (wildcards qs).nesting := by
  rw [writtenWildcards, wildcards, wildcards, nesting, nesting, List.map_map]
  congr 1
  induction qs with
  | nil => rfl
  | cons q? qs ih =>
      rw [List.map_cons, List.map_cons, itemsNesting, itemsNesting, ih, itemNesting_eq,
        itemNesting_eq, Function.comp_apply, pattern_wildcard, pattern_wildcard]

/-- The pieces of an array of wildcards with countable bounds are a derivation. -/
theorem derives_wildcards {levels : Nat} (limit : Nat)
    (hbounds : ∀ q, some q ∈ qs → q.min ≤ 2 ^ 63 - 1 ∧ ∀ m ∈ q.max, m ≤ 2 ^ 63 - 1)
    (hdepth : (wildcards qs).nesting ≤ levels) :
    IsExpression limit levels ((wildcards qs).pieces.map Piece.terminal) (writtenWildcards qs) := by
  cases levels with
  | zero => simp [wildcards, nesting] at hdepth
  | succ levels =>
      have hitems := nesting_array_le_iff.mp hdepth
      have hitem : ∀ q? ∈ qs, IsItem (IsExpression limit levels)
          (((itemPieces ∘ wildcard) q?).map Piece.terminal)
          (wildcard (q?.map Quantifier.written)) := by
        intro q? hq
        have hany : IsExpression limit levels (any.pieces.map Piece.terminal) any := by
          apply Canonical.any.derives limit
          rw [← pattern_wildcard q?]
          exact hitems _ (List.mem_map_of_mem hq)
        cases q? with
        | none => exact .one hany
        | some q =>
            obtain ⟨hmin, hmax⟩ := hbounds q hq
            have hquantifier := Grammar.isQuantifier_written
              (Quantifier.isCountable_iff.mpr hmin)
              fun m hm => Quantifier.isCountable_iff.mpr (hmax m hm)
            exact .many hany hquantifier
      rw [pieces_wildcards, writtenWildcards, wildcards, List.map_map]
      exact derives_primary (.array ['['] (Grammar.isItems_joined hitem))

theorem parse_wildcards
    (hbounds : ∀ q, some q ∈ qs → q.min ≤ 2 ^ 63 - 1 ∧ ∀ m ∈ q.max, m ≤ 2 ^ 63 - 1)
    (hdepth : (wildcards qs).nesting ≤ options.maxDepth) :
    parse options (toString (wildcards qs)) = .ok (writtenWildcards qs) := by
  have hrestates : Restates (IsExpression options.regexSizeLimit options.maxDepth)
      ((wildcards qs).pieces.map Piece.terminal) (wildcards qs).pieces (writtenWildcards qs) :=
    ⟨derives_wildcards _ hbounds hdepth, stands_wildcards qs, by simp⟩
  exact parse_of_restates hrestates (apart_wildcards qs)

theorem bounds_of_parse (h : parse options (toString (wildcards qs)) = .ok p) :
    ∀ q, some q ∈ qs → q.min ≤ 2 ^ 63 - 1 ∧ ∀ m ∈ q.max, m ≤ 2 ^ 63 - 1 := by
  intro q hq
  obtain ⟨hderives, _⟩ := derives_of_continues (continues_wildcards qs) h
  have hreadable := List.forall_mem_map.mp hderives.readable
  apply Quantifier.le_of_readable
  intro r hr
  apply hreadable
  rw [pieces_wildcards]
  have hitem : r ∈ (itemPieces ∘ wildcard) (some q) := List.mem_append_right _ hr
  have hjoined : r ∈ Piece.comma.joined (qs.map (itemPieces ∘ wildcard)) :=
    Piece.mem_joined_of_mem (List.mem_map_of_mem hq) hitem
  simp [hjoined]

/-- Whatever the limits are, nothing but the written array is read. -/
theorem parse_wildcards_eq_ok_iff : parse options (toString (wildcards qs)) = .ok p ↔
    (wildcards qs).nesting ≤ options.maxDepth ∧
      (∀ q, some q ∈ qs → q.min ≤ 2 ^ 63 - 1 ∧ ∀ m ∈ q.max, m ≤ 2 ^ 63 - 1) ∧
      p = writtenWildcards qs := by
  constructor
  · intro h
    have hbounds := bounds_of_parse h
    have hdeep : parse { options with maxDepth := (wildcards qs).nesting }
        (toString (wildcards qs)) = .ok (writtenWildcards qs) :=
      parse_wildcards hbounds (Nat.le_refl _)
    obtain rfl := parse_unique h hdeep
    rw [← nesting_writtenWildcards]
    exact ⟨nesting_le_of_parse h, hbounds, rfl⟩
  · intro h
    obtain ⟨hdepth, hbounds, rfl⟩ := h
    exact parse_wildcards hbounds hdepth

theorem equal_writtenWildcards_iff : (writtenWildcards qs).equal (wildcards qs) = true ↔
    ∀ q, some q ∈ qs → q.step = 1 ∨ q = .even ∨ q = .odd := by
  have hitem (q? : Option Quantifier) :
      equalItem (wildcard (q?.map Quantifier.written)) (wildcard q?) = true ↔
        ∀ q, q? = some q → q.step = 1 ∨ q = .even ∨ q = .odd := by
    cases q? with
    | none => simp [wildcard, equalItem, equal]
    | some q => simp [wildcard, equalItem, equal, Quantifier.written_eq_self_iff]
  rw [writtenWildcards, wildcards, wildcards, equal, equalItems_iff, List.map_map,
    List.forall₂_map_left_iff, List.forall₂_map_right_iff, List.forall₂_same]
  simp only [Function.comp_apply, hitem]
  constructor
  · exact fun h q hq => h _ hq q rfl
  · intro h q? hq q heq
    subst heq
    exact h q hq

/-! ## Round trips -/

/-- Of an array of wildcards, the text tells the bounds, and it is read whenever they have 63 bits.
What is read is equal to the array exactly if all its steps are one or those of the even and the odd
numbers, as every other step is read as one. -/
theorem wildcards_read_back_iff (options : Options) (qs : List (Option Quantifier)) (p : Pattern) :
    (parse options (toString (wildcards qs)) = .ok p ↔
      (wildcards qs).nesting ≤ options.maxDepth ∧
        (∀ q, some q ∈ qs → q.min ≤ 2 ^ 63 - 1 ∧ ∀ m ∈ q.max, m ≤ 2 ^ 63 - 1) ∧
        p = wildcards (qs.map (Option.map Quantifier.written))) ∧
      (parse options (toString (wildcards qs)) = .ok p → ((p == wildcards qs) = true ↔
        ∀ q, some q ∈ qs → q.step = 1 ∨ q = .even ∨ q = .odd)) ∧
      ∀ q : Quantifier, q.written.min = q.min ∧ q.written.max = q.max := by
  refine ⟨parse_wildcards_eq_ok_iff, fun h => ?_, fun q => ?_⟩
  · obtain ⟨_, _, rfl⟩ := parse_wildcards_eq_ok_iff.mp h
    exact equal_writtenWildcards_iff
  · rw [Quantifier.written]
    split <;> exact ⟨rfl, rfl⟩

theorem wildcards_read_back_odd :
    toString (wildcards [none, some .odd, some (.exactly 2)]) =
        "[any, any\x7bodd\x7d, any\x7b2\x7d]" ∧
      ∃ p, parse {} (toString (wildcards [none, some .odd, some (.exactly 2)])) = .ok p ∧
        (p == wildcards [none, some .odd, some (.exactly 2)]) = true := by
  have hread : parse {} (toString (wildcards [none, some .odd, some (.exactly 2)])) =
      .ok (wildcards [none, some .odd, some (.exactly 2)]) := rfl
  obtain ⟨_, hequal, _⟩ :=
    wildcards_read_back_iff {} [none, some .odd, some (.exactly 2)] _
  refine ⟨rfl, _, hread, (hequal hread).mpr ?_⟩
  simp [Quantifier.exactly]

/-- One or three elements are read as one, two or three. -/
theorem not_wildcards_read_back_step : ∃ q p, Quantifier.ofBounds? 1 (some 3) 2 = some q ∧
    parse {} (toString (wildcards [some q])) = .ok p ∧ ¬ (p == wildcards [some q]) = true ∧
      p.accepts (.array [.scalar .nil, .scalar .nil]) = true ∧
      (wildcards [some q]).accepts (.array [.scalar .nil, .scalar .nil]) = false := by
  let q : Quantifier := ⟨1, some 3, 2, by decide, by simp⟩
  let r : Quantifier := ⟨1, some 3, 1, by decide, by simp⟩
  have htext : toString (wildcards [some q]) = "[any\x7b1,3\x7d]" := by decide +kernel
  have hread : parse {} "[any\x7b1,3\x7d]" = .ok (wildcards [some r]) := rfl
  refine ⟨q, wildcards [some r], rfl, by rw [htext, hread], ?_, by decide +kernel,
    by decide +kernel⟩
  change ¬ equal _ _ = true
  simp [wildcards, wildcard, equal, equalItems, equalItem, q, r]

end Pattern

end TreePattern
