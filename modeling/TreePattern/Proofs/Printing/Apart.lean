import TreePattern.Proofs.Printing.Scanning

/-! Lists of pieces of which no two fuse. Only symbols fuse, and only with three operators. -/

namespace TreePattern

namespace Piece

open Token (Kind)

theorem apart_append {ps qs : List Piece} : Apart (ps ++ qs) ↔
    Apart ps ∧ Apart qs ∧ ∀ p ∈ ps.getLast?, ∀ q ∈ qs.head?, p.fuses q = false :=
  List.isChain_append

theorem fuses_of_ne_symbol {p : Piece} (h : p.terminal.kind ≠ .symbol) (q : Piece) :
    p.fuses q = false := by
  rw [Bool.eq_false_iff]
  exact fun hfuses => h (fuses_iff.mp hfuses).1.2.2

theorem fuses_of_not_mem {q : Piece} (h : q.terminal.kind ∉ [Kind.question, .star, .rightAngle])
    (p : Piece) : p.fuses q = false := by
  rw [Bool.eq_false_iff]
  exact fun hfuses => h (fuses_iff.mp hfuses).2.1

theorem apart_cons {p : Piece} (h : p.terminal.kind ≠ .symbol) (ps : List Piece) :
    Apart (p :: ps) ↔ Apart ps := by
  cases ps with
  | nil => exact iff_of_true (.singleton p) .nil
  | cons q ps => exact List.isChain_cons_cons.trans (and_iff_right (fuses_of_ne_symbol h q))

theorem apart_tight_cons {k : Kind} (h : k ≠ .symbol) (l : List Char) (ps : List Piece) :
    Apart (tight k l :: ps) ↔ Apart ps :=
  apart_cons h ps

/-- A piece that fuses with nothing keeps those before it and those behind it apart. -/
theorem apart_append_cons {ps qs : List Piece} {q : Piece}
    (h : q.terminal.kind ∉ [Kind.question, .star, .rightAngle]) (hq : q.terminal.kind ≠ .symbol) :
    Apart (ps ++ q :: qs) ↔ Apart ps ∧ Apart qs := by
  rw [apart_append, apart_cons hq]
  refine and_congr_right' (and_iff_left ?_)
  rintro p _ _ ⟨⟩
  exact fuses_of_not_mem h p

theorem apart_of_ne_symbol {ps : List Piece} (h : ∀ p ∈ ps, p.terminal.kind ≠ .symbol) :
    Apart ps := by
  induction ps with
  | nil => exact .nil
  | cons p ps ih =>
      obtain ⟨hp, hps⟩ := List.forall_mem_cons.mp h
      exact (apart_cons hp ps).mpr (ih hps)

theorem apart_joined {separator : Piece} {pss : List (List Piece)}
    (h : separator.terminal.kind ∉ [Kind.question, .star, .rightAngle])
    (hseparator : separator.terminal.kind ≠ .symbol) :
    Apart (joined separator pss) ↔ ∀ ps ∈ pss, Apart ps := by
  induction pss with
  | nil => exact iff_of_true .nil nofun
  | cons ps rest ih =>
      cases rest with
      | nil => rw [List.forall_mem_singleton, joined]
      | cons qs rest =>
          rw [joined_cons_cons, apart_append_cons h hseparator, ih]
          exact List.forall_mem_cons.symm

theorem joined_ne_nil (separator : Piece) {ps : List Piece} (h : ps ≠ [])
    (rest : List (List Piece)) : joined separator (ps :: rest) ≠ [] := by
  cases rest with
  | nil => exact h
  | cons qs rest => exact List.append_ne_nil_of_left_ne_nil h _

theorem getLast?_joined {separator : Piece} {pss : List (List Piece)} (h : ∀ ps ∈ pss, ps ≠ []) :
    (joined separator pss).getLast? = pss.getLast?.bind List.getLast? := by
  induction pss with
  | nil => rfl
  | cons ps rest ih =>
      cases rest with
      | nil => rfl
      | cons qs rest =>
          have hrest := ih fun rs hrs => h rs (List.mem_cons_of_mem ps hrs)
          obtain ⟨r, rs, hjoined⟩ := List.exists_cons_of_ne_nil (joined_ne_nil separator
            (h qs (List.mem_cons_of_mem ps List.mem_cons_self)) rest)
          rw [hjoined] at hrest
          rw [joined_cons_cons, hjoined, List.getLast?_append_cons, List.getLast?_cons_cons, hrest,
            List.getLast?_cons_cons]

end Piece

open Token (Kind)
open Piece (tight Apart)

namespace Quantifier

theorem kind_ne_symbol (q : Quantifier) : ∀ p ∈ q.pieces, p.terminal.kind ≠ .symbol := by
  obtain ⟨min, max, step, hpos, hle⟩ := q
  simp only [pieces]
  split
  case h_7 => split_ifs <;> simp [bracedPieces, countPiece, commaPiece, tight, Terminal.plain]
  all_goals simp [bracedPieces, countPiece, commaPiece, tight, Terminal.plain]

/-- Only two quantifiers begin with an operator that fuses. -/
theorem pieces_cases (q : Quantifier) : q = .zeroOrMore ∨ q = .optional ∨
    q ≠ .zeroOrMore ∧ q ≠ .optional ∧
      ∀ p ∈ q.pieces.head?, p.terminal.kind ∉ [Kind.question, .star, .rightAngle] := by
  obtain ⟨min, max, step, hpos, hle⟩ := q
  simp only [pieces]
  split
  case h_1 => exact .inl rfl
  case h_3 => exact .inr (.inl rfl)
  case h_6 hzero _ _ _ =>
    refine .inr (.inr ⟨?_, by simp [optional], by
      simp [bracedPieces, tight, Terminal.plain]⟩)
    intro h
    cases h
    exact hzero rfl rfl
  case h_7 hone =>
    refine .inr (.inr ⟨by simp [zeroOrMore, atLeast], ?_, ?_⟩)
    · intro h
      cases h
      exact hone rfl rfl rfl
    · split_ifs <;> simp [bracedPieces, tight, Terminal.plain]
  all_goals
    exact .inr (.inr ⟨by simp [zeroOrMore, atLeast], by simp [optional], by
      simp [bracedPieces, tight, Terminal.plain]⟩)

end Quantifier

namespace Pattern

theorem pieces_ne_nil (p : Pattern) : p.pieces ≠ [] := by
  induction p with
  | any | scalar s | regexp kind r => exact List.cons_ne_nil _ _
  | node className as _ =>
      rw [pieces_node]
      exact List.cons_ne_nil _ _
  | choice p ps ih _ =>
      rw [pieces_choice]
      exact Piece.joined_ne_nil _ ih _
  | array items _ =>
      rw [pieces_array]
      exact List.cons_ne_nil _ _

end Pattern

end TreePattern
