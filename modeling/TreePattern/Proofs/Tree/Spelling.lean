import TreePattern.Proofs.Printing.Canonical
import TreePattern.Proofs.Tree.Coverage

/-! Values whose names are ones that a pattern can be written with. The pattern that asks for such a
value is canonical, and its text has a derivation with as many expressions inside each other as the
value is deep. -/

namespace TreePattern

open Terminal (plain name)
open Piece (tight)
open Grammar (IsExpression)

namespace Value

/-- Values with names that tokens stand for. No node has two attributes of one name. -/
inductive Spelled : Value → Prop where
  | scalar {s} (h : s.Spelled) : Spelled (scalar s)
  | array {vs} (h : ∀ v ∈ vs, Spelled v) : Spelled (array vs)
  | node {className as} (hclass : Token.IsClassName className.toList)
      (hdistinct : (as.map (·.1)).Nodup) (hnames : ∀ a ∈ as, Token.IsAttributeName a.1.toList)
      (h : ∀ a ∈ as, Spelled a.2) : Spelled (node ⟨className, as⟩)

/-! ## Depth -/

mutual

/-- How many expressions stand inside each other in the text of a value. -/
def depth : Value → Nat
  | scalar _ => 1
  | array vs => itemsDepth vs + 1
  | node n => nodeDepth n

def nodeDepth : Node Value → Nat
  | ⟨_, attributes⟩ => attributesDepth attributes + 1

def itemsDepth : List Value → Nat
  | [] => 0
  | v :: vs => max v.depth (itemsDepth vs)

def attributesDepth : List (String × Value) → Nat
  | [] => 0
  | (_, v) :: rest => max v.depth (attributesDepth rest)

end

theorem depth_array_le_iff {vs : List Value} {levels : Nat} :
    (array vs).depth ≤ levels + 1 ↔ ∀ v ∈ vs, v.depth ≤ levels := by
  rw [depth, Nat.add_le_add_iff_right]
  induction vs with
  | nil => simp [itemsDepth]
  | cons v vs ih => simp [itemsDepth, ih]

theorem depth_node_le_iff {className : String} {as : List (String × Value)} {levels : Nat} :
    (node ⟨className, as⟩).depth ≤ levels + 1 ↔ ∀ a ∈ as, a.2.depth ≤ levels := by
  rw [depth, nodeDepth, Nat.add_le_add_iff_right]
  induction as with
  | nil => simp [attributesDepth]
  | cons a as ih => simp [attributesDepth, ih]

/-! ## Setting attributes -/

/-- Setting an attribute keeps a tree spelled. -/
theorem Spelled.set {className a : String} {as : List (String × Value)} {v : Value}
    (h : Spelled (.node ⟨className, as⟩)) (ha : Token.IsAttributeName a.toList) (hv : Spelled v) :
    Spelled (.node (Node.set ⟨className, as⟩ a v)) := by
  cases h with
  | node hclass hdistinct hnames h =>
      refine .node hclass (Node.nodup_map_fst_setIn a v hdistinct) ?_ ?_
      · intro b hb
        rcases Node.mem_of_mem_setIn hb with rfl | hb
        · exact ha
        · exact hnames b hb
      · intro b hb
        rcases Node.mem_of_mem_setIn hb with rfl | hb
        · exact hv
        · exact h b hb

/-! ## Pieces -/

theorem operatorPiece_toPattern (v : Value) :
    v.toPattern.operatorPiece = Piece.spaced .equals ['='] := by
  cases v <;> rw [toPattern] <;> rfl

theorem isChoice_toPattern (v : Value) : v.toPattern.isChoice = false := by
  cases v <;> rw [toPattern] <;> rfl

/-- What holds of all pieces of a value, if it holds of the fixed ones, of its scalars and of its
names. -/
theorem Spelled.forall_pieces {P : Piece → Prop} {v : Value} (h : Spelled v)
    (hoperator : ∀ a ∈ [(['['], Token.Kind.leftBracket), ([']'], .rightBracket),
      (['<'], .leftAngle), (['>'], .rightAngle)], P (tight a.2 a.1))
    (hcomma : P Piece.comma) (hequals : P (Piece.spaced .equals ['=']))
    (hscalar : ∀ s : Scalar, s.Spelled → P (tight s.kind s.chars))
    (hclass : ∀ l, Token.IsClassName l → P (tight .className l))
    (hname : ∀ l, Token.IsAttributeName l → P ⟨name l, 0⟩) : ∀ p ∈ v.toPattern.pieces, P p := by
  induction h with
  | scalar h =>
      rw [toPattern, Pattern.pieces, List.forall_mem_singleton]
      exact hscalar _ h
  | @array vs _ ih =>
      rw [toPattern_array, Pattern.pieces_array, List.map_map]
      apply Piece.forall_bracketed (hoperator (['['], .leftBracket) (by decide))
        (hoperator ([']'], .rightBracket) (by decide)) hcomma
      rw [List.forall_mem_map]
      exact ih
  | @node className as hclassName _ hnames _ ih =>
      rw [toPattern_node, Pattern.pieces_node, List.map_map, List.forall_mem_cons]
      refine ⟨hclass _ hclassName, ?_⟩
      apply Pattern.forall_angled (hoperator (['<'], .leftAngle) (by decide))
        (hoperator (['>'], .rightAngle) (by decide)) hcomma
      rw [List.forall_mem_map]
      intro a ha
      simp only [Function.comp_apply, Pattern.attributePieces, operatorPiece_toPattern,
        List.forall_mem_cons]
      exact ⟨hname _ (hnames a ha), hequals, ih a ha⟩

/-! ## Derivations -/

theorem Spelled.canonical {v : Value} (h : Spelled v) : v.toPattern.Canonical := by
  induction h with
  | scalar h => exact .scalar h
  | @array vs _ ih =>
      rw [toPattern_array]
      refine .array (fun q p hx => ?_) (List.forall_mem_map.mpr ih)
      obtain ⟨v, _, heq⟩ := List.mem_map.mp hx
      cases heq
  | @node className as hclass hdistinct hnames _ ih =>
      rw [toPattern_node]
      refine .node hclass ?_ (List.forall_mem_map.mpr hnames) (List.forall_mem_map.mpr ih)
      rw [List.map_map]
      exact hdistinct

/-- The pieces of a spelled value are scanned as they are written. -/
theorem Spelled.stands {v : Value} (h : Spelled v) :
    ∀ p ∈ v.toPattern.pieces, p.terminal.Stands :=
  h.canonical.stands

theorem nesting_toPattern_le_iff {v : Value} {levels : Nat} :
    v.toPattern.nesting ≤ levels ↔ v.depth ≤ levels := by
  induction v generalizing levels with
  | scalar s => exact Iff.rfl
  | array vs ih =>
      rw [toPattern_array]
      cases levels with
      | zero => simp [Pattern.nesting, depth]
      | succ levels =>
          rw [Pattern.nesting_array_le_iff, depth_array_le_iff, List.forall_mem_map]
          exact forall₂_congr fun v hv => ih v hv
  | node className as ih =>
      rw [toPattern_node]
      cases levels with
      | zero => simp [Pattern.nesting, Pattern.nodeNesting, depth, nodeDepth]
      | succ levels =>
          rw [Pattern.nesting_node_le_iff, depth_node_le_iff, List.forall_mem_map]
          exact forall₂_congr fun a ha => ih a ha

/-- The text of a spelled value is derived with as many levels as the value is deep. -/
theorem Spelled.derives {v : Value} (h : Spelled v) (limit : Nat) {levels : Nat}
    (hdepth : v.depth ≤ levels) :
    IsExpression limit levels (v.toPattern.pieces.map Piece.terminal) v.toPattern :=
  h.canonical.derives limit (nesting_toPattern_le_iff.mpr hdepth)

/-- A spelled value is derived with the levels that it is deep, and with no fewer. -/
theorem Spelled.derives_iff {v : Value} (h : Spelled v) (limit levels : Nat) :
    (∃ ts, IsExpression limit levels ts v.toPattern) ↔ v.depth ≤ levels := by
  constructor
  · rintro ⟨ts, hts⟩
    exact nesting_toPattern_le_iff.mp hts.nesting_le
  · exact fun hdepth => ⟨_, h.derives limit hdepth⟩

end Value

end TreePattern
