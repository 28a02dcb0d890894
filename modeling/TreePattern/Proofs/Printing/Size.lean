import Mathlib.Algebra.GroupWithZero.Nat
import Mathlib.Algebra.Order.BigOperators.Group.List
import Mathlib.Algebra.Order.Group.Nat
import TreePattern.Proofs.Pattern.Equality
import TreePattern.Proofs.Pattern.Parts
import TreePattern.Proofs.Printing.Layout

/-! With how many pieces patterns are written. Equal patterns are written with equally many, though
perhaps in another order. -/

namespace TreePattern

namespace Piece

theorem length_joined (separator : Piece) {pss : List (List Piece)} (h : pss ≠ []) :
    (joined separator pss).length + 1 = (pss.map (·.length + 1)).sum := by
  induction pss with
  | nil => exact absurd rfl h
  | cons ps rest ih =>
      cases rest with
      | nil => simp [joined]
      | cons qs rest =>
          have hrest := ih (List.cons_ne_nil qs rest)
          rw [List.map_cons, List.sum_cons, ← hrest, joined_cons_cons]
          simp only [List.length_append, List.length_cons]
          omega

/-- Equally long sequences are equally long with a piece between them. -/
theorem length_joined_congr (separator : Piece) {pss qss : List (List Piece)}
    (h : pss.map List.length = qss.map List.length) :
    (joined separator pss).length = (joined separator qss).length := by
  cases pss with
  | nil =>
      obtain rfl : qss = [] := List.map_eq_nil_iff.mp h.symm
      rfl
  | cons ps pss =>
      have hne : qss ≠ [] := by
        rintro rfl
        cases h
      have hp := length_joined separator (List.cons_ne_nil ps pss)
      have hq := length_joined separator hne
      have hsum : (((ps :: pss).map List.length).map (· + 1)).sum =
          ((qss.map List.length).map (· + 1)).sum := by rw [h]
      rw [List.map_map, List.map_map] at hsum
      exact Nat.succ.inj (hp.trans (hsum.trans hq.symm))

end Piece

namespace Pattern

theorem pieces_indifferent (p : Pattern) : p.indifferent.pieces = p.pieces := by
  induction p with
  | any => rfl
  | scalar s => rfl
  | regexp kind r => rfl
  | node className as ih =>
      have hoperator (p : Pattern) : p.indifferent.operatorPiece = p.operatorPiece := by
        cases p <;> rfl
      have hattributes : (as.map fun a => (a.1, a.2.indifferent)).map attributePieces =
          as.map attributePieces := by
        rw [List.map_map]
        apply List.map_congr_left
        intro a ha
        rw [Function.comp_apply, attributePieces, hoperator, ih a ha, ← attributePieces]
      rw [indifferent_node, pieces_node, pieces_node, hattributes]
  | choice p ps ih ihs =>
      have hothers : (ps.map indifferent).map pieces = ps.map pieces := by
        rw [List.map_map]
        exact List.map_congr_left ihs
      rw [indifferent_choice, pieces_choice, pieces_choice, List.map_cons, List.map_cons, ih,
        hothers]
  | array items ih =>
      have hitem (x : Item Pattern) (hx : x.pattern.indifferent.pieces = x.pattern.pieces) :
          itemPieces (indifferentItem x) = itemPieces x := by
        cases x with
        | one p => exact hx
        | many q p => exact congrArg (· ++ q.pieces) hx
      have hitems : (items.map indifferentItem).map itemPieces = items.map itemPieces := by
        rw [List.map_map]
        exact List.map_congr_left fun x hx => hitem x (ih x hx)
      rw [indifferent_array, pieces_array, pieces_array, hitems]

/-- Patterns that differ only in whether their regular expressions are indifferent are written in
the same way. -/
theorem chars_indifferent (p : Pattern) : p.indifferent.chars = p.chars := by
  rw [← text_pieces, pieces_indifferent, text_pieces]

/-! ## Equal patterns -/

/-- Attributes with distinct names that have equally large values by name are equally large. -/
theorem sum_eq_of_lookup (size : Pattern → Nat) {as bs : List (String × Pattern)}
    (has : (as.map (·.1)).Nodup) (hlength : as.length = bs.length)
    (h : ∀ a ∈ as, ∃ q, bs.lookup a.1 = some q ∧ size a.2 = size q) :
    (as.map fun a => size a.2).sum = (bs.map fun b => size b.2).sum := by
  have hsubset : (as.map fun a => (a.1, size a.2)) ⊆ bs.map fun b => (b.1, size b.2) := by
    intro c hc
    obtain ⟨a, ha, rfl⟩ := List.mem_map.mp hc
    obtain ⟨q, hq, hsize⟩ := h a ha
    exact List.mem_map.mpr ⟨(a.1, q), Node.mem_of_lookup hq, by rw [hsize]⟩
  have hnodup : (as.map fun a => (a.1, size a.2)).Nodup := by
    refine .of_map (·.1) ?_
    rwa [List.map_map]
  have hperm := (hnodup.subperm hsubset).perm_of_length_le (by simp [hlength])
  have hsum := (hperm.map (·.2)).sum_eq
  rwa [List.map_map, List.map_map] at hsum

theorem length_attributePieces (a : String × Pattern) :
    (attributePieces a).length = a.2.pieces.length + 2 := by
  obtain ⟨name, p⟩ := a
  rfl

theorem length_pieces_node (className : String) {as : List (String × Pattern)} (h : as ≠ []) :
    (node ⟨className, as⟩).pieces.length = (as.map fun a => a.2.pieces.length + 3).sum + 2 := by
  have hne : as.map attributePieces ≠ [] := by simpa using h
  have hjoined := Piece.length_joined Piece.comma hne
  have hsize : (as.map attributePieces).map (·.length + 1) =
      as.map fun a => a.2.pieces.length + 3 := by
    rw [List.map_map]
    exact List.map_congr_left fun a _ => congrArg (· + 1) (length_attributePieces a)
  rw [hsize] at hjoined
  rw [pieces_node, angled, if_neg (by simpa using h)]
  simp only [List.length_cons, List.length_append, List.length_nil]
  omega

theorem length_pieces_node_congr {className className' : String} {as bs : List (String × Pattern)}
    (hlength : as.length = bs.length)
    (hsum : (as.map fun a => a.2.pieces.length + 3).sum =
      (bs.map fun b => b.2.pieces.length + 3).sum) :
    (node ⟨className, as⟩).pieces.length = (node ⟨className', bs⟩).pieces.length := by
  cases as with
  | nil =>
      obtain rfl : bs = [] := List.eq_nil_of_length_eq_zero hlength.symm
      rfl
  | cons a as =>
      have hne : bs ≠ [] := by
        rintro rfl
        cases hlength
      rw [length_pieces_node _ (List.cons_ne_nil a as), length_pieces_node _ hne, hsum]

theorem map_eq_of_forall₂ {α β : Type} {R : α → α → Prop} {f : α → β} {xs ys : List α}
    (h : List.Forall₂ R xs ys) (hf : ∀ x ∈ xs, ∀ y, R x y → f x = f y) : xs.map f = ys.map f := by
  rw [← List.forall₂_eq_eq_eq, List.forall₂_map_left_iff, List.forall₂_map_right_iff]
  exact forall₂_imp_of_mem h fun x hx y _ => hf x hx y

theorem length_itemPieces_of_related {x y : Item Pattern}
    (h : x.Related (fun p q => p.pieces.length = q.pieces.length) y) :
    (itemPieces x).length = (itemPieces y).length := by
  cases h with
  | one h => exact h
  | many k h =>
      rw [itemPieces, itemPieces, List.length_append, List.length_append]
      exact congrArg (· + k.pieces.length) h

/-- Equal patterns are written with equally many pieces. -/
theorem length_pieces_of_equal {p q : Pattern} (hp : WellFormed p) (h : p.equal q = true) :
    p.pieces.length = q.pieces.length := by
  induction hp generalizing q with
  | any =>
      cases q <;> first | rfl | simp [equal] at h
  | scalar s =>
      cases q <;> first | rfl | simp [equal] at h
  | regexp kind r =>
      cases q <;> first | rfl | simp [equal] at h
  | @node className as hnames _ ih =>
      cases q with
      | node n =>
          obtain ⟨className', bs⟩ := n
          obtain ⟨_, hlength, hequal⟩ := equal_node_iff.mp h
          apply length_pieces_node_congr hlength
          apply sum_eq_of_lookup (fun p => p.pieces.length + 3) hnames hlength
          intro a ha
          obtain ⟨q, hq, haq⟩ := hequal a ha
          exact ⟨q, hq, by rw [ih a ha haq]⟩
      | _ => simp [equal] at h
  | @choice p ps _ _ ih =>
      cases q with
      | choice q qs =>
          have hlengths : (p :: ps).map (fun p => p.pieces.length) =
              (q :: qs).map fun p => p.pieces.length :=
            map_eq_of_forall₂ (equal_choice_iff.mp h) fun r hr _ => ih r hr
          rw [pieces_choice, pieces_choice]
          apply Piece.length_joined_congr _
          rwa [List.map_map, List.map_map]
      | _ => simp [equal] at h
  | @array xs _ ih =>
      cases q with
      | array ys =>
          have hlengths : xs.map (fun x => (itemPieces x).length) =
              ys.map fun x => (itemPieces x).length :=
            map_eq_of_forall₂ (equal_array_iff.mp h) fun x hx _ hxy =>
              length_itemPieces_of_related (hxy.imp (ih x hx))
          have hjoined : (Piece.comma.joined (xs.map itemPieces)).length =
              (Piece.comma.joined (ys.map itemPieces)).length := by
            apply Piece.length_joined_congr _
            rwa [List.map_map, List.map_map]
          rw [pieces_array, pieces_array, List.length_cons, List.length_cons, List.length_append,
            List.length_append, hjoined]
      | _ => simp [equal] at h

end Pattern

end TreePattern
