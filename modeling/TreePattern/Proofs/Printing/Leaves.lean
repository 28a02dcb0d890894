import TreePattern.Proofs.Printing.Scanning
import TreePattern.Proofs.Token.Language

/-! Derivations of printed scalars, operands and quantifiers. What a derivation denotes is printed
with terminals that have a derivation as well, and no derivation is shorter. -/

namespace TreePattern

open Token (Kind)
open Terminal (plain name stands_className stands_symbol stands_keyword stands_integer
  stands_string stands_regexp stands_operator stands_name)
open Piece (tight)

/-- The name of a symbol is one that a symbol token can have. -/
def Scalar.Spelled (s : Scalar) : Prop :=
  ∀ name, s = .symbol name → Token.IsSymbol (':' :: name.toList)

namespace Grammar

/-- A terminal that a scan has found somewhere. -/
def Scanned (t : Terminal) : Prop :=
  ∃ behind, Token.scan? t.request (t.lexeme ++ behind) = some (t.kind, t.lexeme)

end Grammar

theorem Tiles.scanned {cs rest : List Char} {ts : List Terminal} (h : Tiles cs ts rest) :
    ∀ t ∈ ts, Grammar.Scanned t := by
  induction h with
  | nil => exact nofun
  | cons _ hscan _ ih => exact List.forall_mem_cons.mpr ⟨⟨_, hscan⟩, ih⟩

namespace Grammar

variable {α : Type} {limit : Nat}

/-- The pieces stand, have a derivation of what is given, and are no more than the terminals. -/
structure Restates (One : List Terminal → α → Prop) (ts : List Terminal) (ps : List Piece)
    (x : α) : Prop where
  derives : One (ps.map Piece.terminal) x
  stands : ∀ p ∈ ps, p.terminal.Stands
  length_le : ps.length ≤ ts.length

theorem Restates.singleton {One : List Terminal → α → Prop} {t u : Terminal} {x : α}
    (h : One [u] x) (hu : u.Stands) : Restates One [t] [⟨u, 0⟩] x where
  derives := h
  stands := List.forall_mem_singleton.mpr hu
  length_le := Nat.le_refl 1

/-! ## Scalars and regular expressions -/

theorem isScalar_chars (s : Scalar) : IsScalar [plain s.kind s.chars] s := by
  rcases s with _ | (_ | _) | n | s | name
  · exact .nil _
  · exact .false _
  · exact .true _
  · exact .integer (Numeral.value?_ofInt64 n)
  · have hstring := IsScalar.string (Quoted.encode s.toList)
    rwa [Quoted.value_encode, String.ofList_toList] at hstring
  · have hsymbol := IsScalar.symbol (':' :: name.toList)
    rwa [List.drop_one, List.tail_cons, String.ofList_toList] at hsymbol

/-- Every scalar is scanned as it is written, but for symbols that no symbol token stands for. -/
theorem stands_scalar {s : Scalar} (h : s.Spelled) : (plain s.kind s.chars).Stands := by
  rcases s with _ | (_ | _) | n | s | name
  · exact stands_keyword (by decide) (by decide) rfl nofun
  · exact stands_keyword (by decide) (by decide) rfl nofun
  · exact stands_keyword (by decide) (by decide) rfl nofun
  · exact stands_integer n
  · exact stands_string _
  · have hsymbol := (Token.isLongest_symbol _).eq_some_self (h name rfl)
    have hscan : Token.lexeme? (':' :: name.toList ++ []) = some (.symbol, ':' :: name.toList) := by
      rw [List.append_nil]
      exact Token.lexeme?_of_symbol? hsymbol
    exact stands_symbol hscan

theorem IsScalar.spelled {ts : List Terminal} {s : Scalar} (h : IsScalar ts s)
    (hts : ∀ t ∈ ts, Scanned t) : s.Spelled := by
  rintro name rfl
  cases h with
  | symbol l =>
      obtain ⟨behind, hscan⟩ := hts _ List.mem_cons_self
      have hsymbol : Token.IsSymbol l :=
        ((Token.isLongest_symbol _).of_eq_some ((Token.scan_of_lexeme? hscan).2.1 rfl)).1
      obtain ⟨name, rfl, hname⟩ := hsymbol
      rw [List.drop_one, List.tail_cons, String.toList_ofList]
      exact ⟨name, rfl, hname⟩

theorem IsScalar.restates {ts : List Terminal} {s : Scalar} (h : IsScalar ts s)
    (hts : ∀ t ∈ ts, Scanned t) : Restates IsScalar ts [tight s.kind s.chars] s := by
  have hstands := stands_scalar (h.spelled hts)
  cases h <;> exact .singleton (isScalar_chars _) hstands

theorem compile?_eq_some {source : String} {flags : Regexp.Flags} {r : Regexp}
    (h : Regexp.compile? source flags limit = some r) : r.source = source ∧ r.flags = flags := by
  unfold Regexp.compile? at h
  split at h
  · split at h
    · cases h
      exact ⟨rfl, rfl⟩
    · cases h
  · cases h

theorem Restates.regexp {t : Terminal} {source : List Char} {flags : Regexp.Flags} {r : Regexp}
    (h : Regexp.compile? (.ofList source) flags limit = some r)
    (hsource : Regexp.IsWritable source) :
    Restates (IsOperand limit .anywhere) [t] [tight .regexp r.chars] (.regexp .either r) := by
  obtain ⟨rsource, rflags⟩ := compile?_eq_some h
  have hwritable : Regexp.IsWritable r.source.toList := by simpa [rsource] using hsource
  refine .singleton (.regexp ?_) (stands_regexp hwritable)
  rw [Regexp.split_chars hwritable, String.ofList_toList, rsource, rflags, h]

theorem IsOperand.restates {anchor : Anchor} {ts : List Terminal} {p : Pattern}
    (h : IsOperand limit anchor ts p) (hts : ∀ t ∈ ts, Scanned t) :
    ∃ kind r, p = .regexp kind r ∧ Restates (IsOperand limit .anywhere) ts
      [tight .regexp r.chars] (.regexp .either r) := by
  cases h with
  | @symbol _ l r h => exact ⟨_, r, rfl, .regexp h (Regexp.isWritable_source _ _)⟩
  | @string _ l r h => exact ⟨_, r, rfl, .regexp h (Regexp.isWritable_source _ _)⟩
  | @regexp l r h =>
      obtain ⟨behind, hscan⟩ := hts _ List.mem_cons_self
      have hl := (Token.scan_of_lexeme? hscan).2.2 rfl
      exact ⟨_, r, rfl, .regexp h (Regexp.isWritable_split hl)⟩

/-! ## Quantifiers -/

/-- The numbers that a count may denote. -/
def IsCountable (n : Nat) : Prop := ∃ i : Int64, 0 ≤ i.toInt ∧ i.toInt.toNat = n

theorem IsCount.isCountable {ts : List Terminal} {n : Nat} (h : IsCount ts n) : IsCountable n := by
  cases h with
  | numeral _ hn => exact ⟨_, hn, rfl⟩

theorem IsCount.length {ts : List Terminal} {n : Nat} (h : IsCount ts n) : ts.length = 1 := by
  cases h
  rfl

theorem IsCountable.isCount {n : Nat} (h : IsCountable n) :
    IsCount [plain .integer (Numeral.ofNat n)] n := by
  obtain ⟨i, hi, rfl⟩ := h
  rw [← Numeral.ofInt64_of_nonneg hi]
  exact .numeral (Numeral.value?_ofInt64 i) hi

theorem isCountable_zero : IsCountable 0 := ⟨0, by decide, by decide⟩

/-- What the quantifiers of derivations have in common. -/
structure IsWritable (q : Quantifier) : Prop where
  min : IsCountable q.min
  max : ∀ m ∈ q.max, IsCountable m
  step : q.step = 1 ∨ q = .even ∨ q = .odd

theorem isCountable_one : IsCountable 1 := ⟨1, by decide, by decide⟩

theorem IsBraced.isWritable {ts : List Terminal} {q : Quantifier} (h : IsBraced ts q) :
    IsWritable q := by
  cases h with
  | even l l' => exact ⟨isCountable_zero, nofun, .inr (.inl rfl)⟩
  | odd l l' => exact ⟨isCountable_one, nofun, .inr (.inr rfl)⟩
  | exactly l h =>
      refine ⟨h.isCountable, ?_, .inl rfl⟩
      rintro _ ⟨⟩
      exact h.isCountable
  | between l l' hmin hmax hq hstep =>
      refine ⟨?_, fun m hm => ?_, .inl hstep⟩
      · rw [hq]
        cases hmin with
        | absent => exact isCountable_zero
        | present h => exact h.isCountable
      · rw [hm] at hmax
        cases hmax with
        | present h => exact h.isCountable

theorem IsQuantifier.isWritable {ts : List Terminal} {q : Quantifier} (h : IsQuantifier ts q) :
    IsWritable q := by
  cases h with
  | zeroOrMore l => exact ⟨isCountable_zero, nofun, .inl rfl⟩
  | oneOrMore l => exact ⟨isCountable_one, nofun, .inl rfl⟩
  | optional l =>
      refine ⟨isCountable_zero, ?_, .inl rfl⟩
      rintro _ ⟨⟩
      exact isCountable_one
  | braced l h => exact h.isWritable

end Grammar

namespace Quantifier

/-- The quantifier that the notation of a quantifier stands for: a step other than one has no
notation but in the words for the even and the odd numbers. -/
def written (q : Quantifier) : Quantifier :=
  if q = .even ∨ q = .odd then q else ⟨q.min, q.max, 1, Nat.one_pos, q.min_le_max⟩

theorem written_of_ne {q : Quantifier} (heven : q ≠ .even) (hodd : q ≠ .odd) :
    q.written = ⟨q.min, q.max, 1, Nat.one_pos, q.min_le_max⟩ :=
  if_neg (not_or.mpr ⟨heven, hodd⟩)

theorem written_eq_self_iff {q : Quantifier} :
    q.written = q ↔ q.step = 1 ∨ q = .even ∨ q = .odd := by
  by_cases h : q = .even ∨ q = .odd
  · rw [written, if_pos h]
    simp [h]
  · rw [written, if_neg h, or_iff_left h]
    constructor
    · intro heq
      exact (congrArg step heq).symm
    · intro hstep
      exact Quantifier.ext rfl rfl hstep.symm

end Quantifier

namespace Grammar

/-- What the pieces of a quantifier stand for, if its bounds can be counted. -/
theorem isQuantifier_written {q : Quantifier} (hmin : IsCountable q.min)
    (hmax : ∀ m ∈ q.max, IsCountable m) : IsQuantifier (q.pieces.map Piece.terminal) q.written := by
  obtain ⟨min, max, step, hpos, hle⟩ := q
  simp only [Quantifier.pieces]
  split
  case h_1 => exact .zeroOrMore _
  case h_2 => exact .oneOrMore _
  case h_3 => exact .optional _
  case h_4 => exact .braced _ (.even _ _)
  case h_5 => exact .braced _ (.odd _ _)
  case h_6 heven hodd =>
    have heven' : (⟨min, none, step, hpos, hle⟩ : Quantifier) ≠ .even := by
      rintro ⟨⟩
      exact heven rfl rfl
    have hodd' : (⟨min, none, step, hpos, hle⟩ : Quantifier) ≠ .odd := by
      rintro ⟨⟩
      exact hodd rfl rfl
    rw [Quantifier.written_of_ne heven' hodd']
    have hbraced : IsBraced ([plain .integer (Numeral.ofNat min)] ++ plain .comma [','] ::
        ([] ++ [plain .rightBrace ['\x7d']])) ⟨min, none, 1, Nat.one_pos, hle⟩ :=
      .between _ _ (.present hmin.isCount) .absent rfl rfl
    exact .braced _ hbraced
  case h_7 m _ =>
    have hm := (hmax m rfl).isCount
    rw [Quantifier.written_of_ne (by rintro ⟨⟩) (by rintro ⟨⟩)]
    split_ifs with heq hzero
    · subst heq
      exact .braced _ (.exactly _ hmin.isCount)
    · have hbraced : IsBraced ([] ++ plain .comma [','] :: ([plain .integer (Numeral.ofNat m)] ++
          [plain .rightBrace ['\x7d']])) ⟨min, some m, 1, Nat.one_pos, hle⟩ :=
        .between _ _ .absent (.present hm) hzero rfl
      exact .braced _ hbraced
    · have hbraced : IsBraced ([plain .integer (Numeral.ofNat min)] ++ plain .comma [','] ::
          ([plain .integer (Numeral.ofNat m)] ++ [plain .rightBrace ['\x7d']]))
          ⟨min, some m, 1, Nat.one_pos, hle⟩ :=
        .between _ _ (.present hmin.isCount) (.present hm) rfl rfl
      exact .braced _ hbraced

theorem isQuantifier_pieces {q : Quantifier} (h : IsWritable q) :
    IsQuantifier (q.pieces.map Piece.terminal) q := by
  have hwritten := isQuantifier_written h.min h.max
  rwa [Quantifier.written_eq_self_iff.mpr h.step] at hwritten

theorem stands_bracedPieces {ps : List Piece} (h : ∀ p ∈ ps, p.terminal.Stands) :
    ∀ p ∈ Quantifier.bracedPieces ps, p.terminal.Stands := by
  intro p hp
  rcases List.mem_cons.mp hp with rfl | hp
  · exact stands_operator (by decide)
  · rcases List.mem_append.mp hp with hp | hp
    · exact h p hp
    · obtain rfl := List.mem_singleton.mp hp
      exact stands_operator (by decide)

theorem stands_pieces (q : Quantifier) : ∀ p ∈ q.pieces, p.terminal.Stands := by
  have hcomma : Quantifier.commaPiece.terminal.Stands := stands_operator (by decide)
  have hcount (n : Nat) : (Quantifier.countPiece n).terminal.Stands := Terminal.stands_count n
  obtain ⟨min, max, step, hpos, hle⟩ := q
  simp only [Quantifier.pieces]
  split
  case h_1 | h_2 | h_3 =>
    exact List.forall_mem_singleton.mpr (stands_operator (by decide))
  case h_4 | h_5 =>
    refine stands_bracedPieces (List.forall_mem_singleton.mpr ?_)
    exact stands_keyword (by decide) (by decide) rfl (by decide)
  case h_6 => exact stands_bracedPieces (by simp [hcomma, hcount])
  case h_7 m _ =>
    split_ifs
    all_goals exact stands_bracedPieces (by simp [hcomma, hcount])

theorem length_pieces_le (q : Quantifier) : q.pieces.length ≤
    if q.max = some q.min then 3 else if q.max = none ∨ q.min = 0 then 4 else 5 := by
  obtain ⟨min, max, step, hpos, hle⟩ := q
  simp only [Quantifier.pieces]
  split
  case h_7 m _ =>
    by_cases heq : min = m
    · rw [if_pos heq, if_pos (congrArg some heq.symm)]
      exact Nat.le_refl 3
    · have hne : some m ≠ some min := fun h => heq (Option.some.inj h).symm
      by_cases hzero : min = 0
      · rw [if_neg heq, if_pos hzero, if_neg hne, if_pos (.inr hzero)]
        exact Nat.le_refl 4
      · rw [if_neg heq, if_neg hzero, if_neg hne, if_neg (by simp [hzero])]
        exact Nat.le_refl 5
  all_goals simp [Quantifier.bracedPieces]

theorem IsQuantifier.length_pieces_le {ts : List Terminal} {q : Quantifier}
    (h : IsQuantifier ts q) : q.pieces.length ≤ ts.length := by
  cases h with
  | zeroOrMore l | oneOrMore l | optional l => exact Nat.le_refl 1
  | @braced ts q l h =>
      have hle := Grammar.length_pieces_le q
      cases h with
      | even l l' => exact Nat.le_refl 3
      | odd l l' => exact Nat.le_refl 3
      | @exactly _ n l h =>
          have hexact : (Quantifier.exactly n).max = some (Quantifier.exactly n).min := rfl
          rw [if_pos hexact] at hle
          simpa [h.length] using hle
      | between l l' hmin hmax hq hstep =>
          generalize hmaxeq : q.max = max at hmax
          cases hmin with
          | absent =>
              cases hmax with
              | absent =>
                  obtain rfl : q = .zeroOrMore := Quantifier.ext hq hmaxeq hstep
                  exact Nat.le_add_left 1 2
              | present hmax =>
                  have hfour : q.pieces.length ≤ 4 := by
                    rw [if_pos (show q.max = none ∨ q.min = 0 from .inr hq)] at hle
                    exact hle.trans (by split <;> omega)
                  simpa [hmax.length] using hfour
          | present hmin =>
              cases hmax with
              | absent =>
                  have hfour : q.pieces.length ≤ 4 := by
                    rw [if_pos (show q.max = none ∨ q.min = 0 from .inl hmaxeq)] at hle
                    exact hle.trans (by split <;> omega)
                  simpa [hmin.length] using hfour
              | present hmax =>
                  have hfive : q.pieces.length ≤ 5 := hle.trans (by split_ifs <;> omega)
                  simpa [hmin.length, hmax.length] using hfive

theorem IsQuantifier.restates {ts : List Terminal} {q : Quantifier} (h : IsQuantifier ts q) :
    Restates IsQuantifier ts q.pieces q where
  derives := isQuantifier_pieces h.isWritable
  stands := stands_pieces q
  length_le := h.length_pieces_le

end Grammar

end TreePattern
