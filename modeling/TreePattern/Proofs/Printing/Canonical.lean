import TreePattern.Proofs.Nesting.Exact
import TreePattern.Proofs.Printing.Restating

/-! Canonical patterns: those that can be written down. Their names and symbols are ones that tokens
stand for, their choices are flat, and their quantifiers are among those that have a notation. The
pieces of a canonical pattern are derived with as many levels as the pattern is deep. -/

namespace TreePattern

open Terminal (plain name stands_className stands_operator stands_attributeName stands_keyword)
open Piece (tight)
open Grammar (IsConstraint IsItem IsItems IsPrimary IsExpression)

namespace Quantifier

/-- The even numbers, the odd numbers, or all numbers between bounds of 63 bits. -/
def IsCanonical (q : Quantifier) : Prop :=
  ((q.min = 0 ∨ q.min = 1) ∧ q.max = none ∧ q.step = 2) ∨
    (q.step = 1 ∧ q.min ≤ 2 ^ 63 - 1 ∧ ∀ m ∈ q.max, m ≤ 2 ^ 63 - 1)

theorem isCountable_iff {n : Nat} : Grammar.IsCountable n ↔ n ≤ 2 ^ 63 - 1 := by
  constructor
  · rintro ⟨i, hi, rfl⟩
    have hlt := i.toInt_lt
    omega
  · intro hn
    have hvalue := Int64.toInt_ofNat_of_lt (show n < 2 ^ 63 by omega)
    exact ⟨.ofNat n, by omega, by omega⟩

theorem isWritable_iff {q : Quantifier} : Grammar.IsWritable q ↔ q.IsCanonical := by
  constructor
  · rintro ⟨hmin, hmax, hstep | rfl | rfl⟩
    · exact .inr ⟨hstep, isCountable_iff.mp hmin, fun m hm => isCountable_iff.mp (hmax m hm)⟩
    · exact .inl ⟨.inl rfl, rfl, rfl⟩
    · exact .inl ⟨.inr rfl, rfl, rfl⟩
  · rintro (⟨hmin | hmin, hmax, hstep⟩ | ⟨hstep, hmin, hmax⟩)
    · obtain rfl : q = .even := Quantifier.ext hmin hmax hstep
      exact ⟨Grammar.isCountable_zero, nofun, .inr (.inl rfl)⟩
    · obtain rfl : q = .odd := Quantifier.ext hmin hmax hstep
      exact ⟨Grammar.isCountable_one, nofun, .inr (.inr rfl)⟩
    · exact ⟨isCountable_iff.mpr hmin, fun m hm => isCountable_iff.mpr (hmax m hm), .inl hstep⟩

end Quantifier

namespace Pattern

/-- Patterns that can be written down, but for how deep they are. No regular expression is among
them. -/
inductive Canonical : Pattern → Prop where
  | any : Canonical any
  | scalar {s} (h : s.Spelled) : Canonical (scalar s)
  | node {className as} (hclass : Token.IsClassName className.toList)
      (hdistinct : (as.map (·.1)).Nodup) (hnames : ∀ a ∈ as, Token.IsAttributeName a.1.toList)
      (h : ∀ a ∈ as, Canonical a.2) : Canonical (node ⟨className, as⟩)
  | choice {p ps} (hseveral : ps ≠ []) (hflat : ∀ q ∈ p :: ps, q.isChoice = false)
      (h : ∀ q ∈ p :: ps, Canonical q) : Canonical (choice p ps)
  | array {xs} (hquantifiers : ∀ q p, Item.many q p ∈ xs → q.IsCanonical)
      (h : ∀ x ∈ xs, Canonical x.pattern) : Canonical (array xs)

variable {p : Pattern}

theorem Canonical.nesting_pos (h : Canonical p) : 0 < p.nesting := by
  induction h with
  | any | scalar => exact Nat.one_pos
  | node | array => simp [nesting, nodeNesting]
  | @choice p ps _ _ _ ih =>
      exact (ih p List.mem_cons_self).trans_le
        (nesting_choice_le_iff.mp le_rfl p List.mem_cons_self)

theorem Canonical.operatorPiece (h : Canonical p) :
    p.operatorPiece = Piece.spaced .equals ['='] := by
  cases h <;> rfl

/-! ## Standing pieces -/

theorem stands_tight_className {l : List Char} (h : Token.IsClassName l) :
    (tight .className l).terminal.Stands := by
  have hscan : Token.lexeme? (l ++ []) = some (.className, l) := by
    rw [List.append_nil]
    exact Token.lexeme?_of_className? ((Token.isLongest_className l).eq_some_self h)
  exact stands_className hscan

/-- The pieces of a canonical pattern are scanned as they are written. -/
theorem Canonical.stands (h : Canonical p) : ∀ q ∈ p.pieces, q.terminal.Stands := by
  have hcomma : Piece.comma.terminal.Stands := stands_operator (by decide)
  induction h with
  | any =>
      rw [pieces, List.forall_mem_singleton]
      exact stands_keyword (by decide) (by decide) rfl (by decide)
  | scalar h =>
      rw [pieces, List.forall_mem_singleton]
      exact Grammar.stands_scalar h
  | @node className as hclass _ hnames has ih =>
      rw [pieces_node, List.forall_mem_cons]
      refine ⟨stands_tight_className hclass, forall_angled (P := fun q => q.terminal.Stands)
        (stands_operator (by decide)) (stands_operator (by decide)) hcomma ?_⟩
      rw [List.forall_mem_map]
      intro a ha
      rw [attributePieces, (has a ha).operatorPiece, List.forall_mem_cons, List.forall_mem_cons]
      exact ⟨stands_attributeName (hnames a ha), stands_operator (by decide), ih a ha⟩
  | @choice p ps _ _ _ ih =>
      rw [pieces_choice]
      refine Piece.forall_joined (P := fun q => q.terminal.Stands) (stands_operator (by decide)) ?_
      rw [List.forall_mem_map]
      exact ih
  | @array xs _ _ ih =>
      rw [pieces_array]
      refine Piece.forall_bracketed (P := fun q => q.terminal.Stands)
        (stands_operator (by decide)) (stands_operator (by decide)) hcomma ?_
      rw [List.forall_mem_map]
      intro x hx
      cases x with
      | one p => exact ih _ hx
      | many q p => exact List.forall_mem_append.mpr ⟨ih _ hx, Grammar.stands_pieces q⟩

/-! ## Derivations -/

variable {limit levels : Nat}

theorem derives_primary {ts : List Terminal}
    (h : IsPrimary limit (IsExpression limit levels) ts p) : IsExpression limit (levels + 1) ts p :=
  ⟨[p], .last h, .single p⟩

theorem Canonical.isPrimary
    (hE : ∀ q, Canonical q → q.nesting ≤ levels →
      IsExpression limit levels (q.pieces.map Piece.terminal) q)
    (h : Canonical p) (hflat : p.isChoice = false) (hdepth : p.nesting ≤ levels + 1) :
    IsPrimary limit (IsExpression limit levels) (p.pieces.map Piece.terminal) p := by
  cases h with
  | any => exact .any _
  | scalar h => exact .scalar (Grammar.isScalar_chars _)
  | choice => cases hflat
  | @node className as hclass hdistinct hnames has =>
      have hvalues := nesting_node_le_iff.mp hdepth
      have hconstraint : ∀ a ∈ as, IsConstraint limit (IsExpression limit levels)
          ((attributePieces a).map Piece.terminal) (id a) := by
        intro a ha
        have hvalue : IsConstraint limit (IsExpression limit levels) _ (_, a.2) :=
          .equals a.1.toList ['='] (hE a.2 (has a ha) (hvalues a ha))
        rw [String.ofList_toList] at hvalue
        rw [attributePieces, (has a ha).operatorPiece]
        exact hvalue
      have hnode := IsPrimary.node className.toList (Grammar.isAttributes_angled hconstraint)
      rw [List.map_id, String.ofList_toList, Node.lastValues_of_nodup hdistinct] at hnode
      rw [pieces_node]
      exact hnode
  | @array xs hquantifiers hxs =>
      have hitems := nesting_array_le_iff.mp hdepth
      have hitem : ∀ x ∈ xs, IsItem (IsExpression limit levels)
          ((itemPieces x).map Piece.terminal) (id x) := by
        intro x hx
        have hx' := hE x.pattern (hxs x hx) (hitems x hx)
        cases x with
        | one p => exact .one hx'
        | many q p =>
            rw [itemPieces, List.map_append]
            exact .many hx' (Grammar.isQuantifier_pieces
              (Quantifier.isWritable_iff.mpr (hquantifiers q p hx)))
      have harray : IsPrimary limit (IsExpression limit levels) _ (.array (xs.map id)) :=
        .array ['['] (Grammar.isItems_joined hitem)
      rw [List.map_id] at harray
      rw [pieces_array]
      exact harray

/-- The pieces of a canonical pattern are a derivation of it, by induction on the levels that stand
inside each other. -/
theorem Canonical.derives (h : Canonical p) (limit : Nat) (hdepth : p.nesting ≤ levels) :
    IsExpression limit levels (p.pieces.map Piece.terminal) p := by
  induction levels generalizing p with
  | zero =>
      have hpos := h.nesting_pos
      omega
  | succ levels ih =>
      have hprimary (q : Pattern) (hq : Canonical q) (hflat : q.isChoice = false)
          (hdepth : q.nesting ≤ levels + 1) :
          IsPrimary limit (IsExpression limit levels) (q.pieces.map Piece.terminal) q :=
        hq.isPrimary (fun _ => ih) hflat hdepth
      cases hchoice : p.isChoice with
      | false => exact derives_primary (hprimary p h hchoice hdepth)
      | true =>
          cases h with
          | any | scalar | node | array => cases hchoice
          | @choice p ps hseveral hflat hps =>
              obtain ⟨q, qs, rfl⟩ := List.exists_cons_of_ne_nil hseveral
              have hdepths := nesting_choice_le_iff.mp hdepth
              have halternatives : ∀ r ∈ p :: q :: qs, IsPrimary limit (IsExpression limit levels)
                  (r.pieces.map Piece.terminal) (id r) :=
                fun r hr => hprimary r (hps r hr) (hflat r hr) (hdepths r hr)
              have hseparated := Grammar.separated_joined (p := Piece.bar) rfl
                (List.cons_ne_nil p (q :: qs)) halternatives
              rw [List.map_id] at hseparated
              rw [pieces_choice]
              exact ⟨_, hseparated, .choice p q qs⟩

end Pattern

end TreePattern
