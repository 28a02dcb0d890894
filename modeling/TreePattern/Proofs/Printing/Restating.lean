import TreePattern.Proofs.Printing.Leaves
import TreePattern.Proofs.Printing.Size

/-! Derivations of printed patterns. What a derivation denotes is printed with terminals that have a
derivation as well, of the same pattern with indifferent regular expressions. No derivation of the
pattern is shorter. -/

namespace TreePattern

open Token (Kind)
open Terminal (plain name stands_className stands_symbol stands_keyword stands_operator stands_name)
open Piece (tight)

namespace Grammar

variable {α : Type} {limit : Nat}

/-! ## Lists with separators -/

section

variable {β : Type} {separator : Kind} {One : List Terminal → α → Prop}
  {One' : List Terminal → β → Prop} {ts : List Terminal} {xs : List α}

theorem Separated.sum_le (size : α → Nat)
    (hsize : ∀ us x, One us x → (∀ t ∈ us, Scanned t) → size x ≤ us.length)
    (h : Separated separator One ts xs) (hts : ∀ t ∈ ts, Scanned t) :
    (xs.map (size · + 1)).sum ≤ ts.length + 1 := by
  induction h with
  | last h => simpa using hsize _ _ h hts
  | @more ts us x xs l h _ ih =>
      have hx := hsize _ _ h fun t ht => hts t (List.mem_append_left _ ht)
      have hxs := ih fun t ht => hts t (List.mem_append_right ts (List.mem_cons_of_mem _ ht))
      rw [List.map_cons, List.sum_cons, List.length_append, List.length_cons]
      omega

theorem separated_joined {pieces : α → List Piece} {f : α → β} {p : Piece} {l : List Char}
    (hp : p.terminal = plain separator l) (hne : xs ≠ [])
    (h : ∀ x ∈ xs, One' ((pieces x).map Piece.terminal) (f x)) :
    Separated separator One' ((p.joined (xs.map pieces)).map Piece.terminal) (xs.map f) := by
  induction xs with
  | nil => exact absurd rfl hne
  | cons x xs ih =>
      have hx := h x List.mem_cons_self
      cases xs with
      | nil => exact .last hx
      | cons y xs =>
          have hxs := ih (List.cons_ne_nil y xs) fun z hz => h z (List.mem_cons_of_mem x hz)
          rw [List.map_cons, List.map_cons, Piece.joined_cons_cons, List.map_append, List.map_cons,
            hp]
          exact .more l hx hxs

theorem sum_map_le_of_subperm (size : α → Nat) {ys : List α} (h : ys.Subperm xs) :
    (ys.map size).sum ≤ (xs.map size).sum := by
  obtain ⟨zs, hperm, hsub⟩ := h
  calc (ys.map size).sum
      = (zs.map size).sum := (hperm.symm.map size).sum_eq
    _ ≤ (xs.map size).sum := (hsub.map size).sum_le_sum fun _ _ => Nat.zero_le _

/-- Some of the elements of a list, in any order, are restated with a piece between them. -/
theorem Separated.restates {pieces : α → List Piece} {f : α → β} {p : Piece} {l : List Char}
    {ys : List α}
    (hone : ∀ us x, One us x → (∀ t ∈ us, Scanned t) → Restates One' us (pieces x) (f x))
    (h : Separated separator One ts xs) (hts : ∀ t ∈ ts, Scanned t) (hys : ys.Subperm xs)
    (hne : ys ≠ []) (hp : p.terminal = plain separator l) (hstands : p.terminal.Stands) :
    Restates (Separated separator One') ts (p.joined (ys.map pieces)) (ys.map f) := by
  have hparts : ∀ y ∈ ys, ∃ us, Restates One' us (pieces y) (f y) := by
    intro y hy
    obtain ⟨us, hus, hone'⟩ := h.mem y (hys.subset hy)
    exact ⟨us, hone us y hone' fun t ht => hts t (hus ht)⟩
  refine ⟨separated_joined hp hne fun y hy => ?_, Piece.forall_joined hstands ?_, ?_⟩
  · obtain ⟨us, hy⟩ := hparts y hy
    exact hy.derives
  · rw [List.forall_mem_map]
    intro y hy
    obtain ⟨us, hy⟩ := hparts y hy
    exact hy.stands
  · have hjoined := Piece.length_joined p (List.map_eq_nil_iff.not.mpr hne : ys.map pieces ≠ [])
    have hsub := sum_map_le_of_subperm (fun x => (pieces x).length + 1) hys
    have hsum := h.sum_le (fun x => (pieces x).length)
      (fun us x hx hus => (hone us x hx hus).length_le) hts
    rw [List.map_map] at hjoined
    exact Nat.succ_le_succ_iff.mp (hjoined.trans_le (hsub.trans hsum))

end

/-! ## Lists in brackets -/

section

variable {E : List Terminal → Pattern → Prop} {pieces : α → List Piece} {xs : List α}

theorem isAttributes_angled {f : α → String × Pattern}
    (h : ∀ x ∈ xs, IsConstraint limit E ((pieces x).map Piece.terminal) (f x)) :
    IsAttributes limit E ((Pattern.angled (xs.map pieces)).map Piece.terminal) (xs.map f) := by
  by_cases hnil : xs = []
  · subst hnil
    exact .absent
  · rw [Pattern.angled_of_ne_nil (by simpa using hnil), List.map_cons, List.map_append]
    exact .present _ _ (separated_joined rfl hnil h)

theorem isItems_joined {f : α → Item Pattern}
    (h : ∀ x ∈ xs, IsItem E ((pieces x).map Piece.terminal) (f x)) :
    IsItems E ((Piece.comma.joined (xs.map pieces) ++ [tight .rightBracket [']']]).map
      Piece.terminal) (xs.map f) := by
  by_cases hnil : xs = []
  · subst hnil
    exact .nil _
  · rw [List.map_append]
    exact .cons _ (separated_joined rfl hnil h)

end

/-! ## Patterns -/

section

variable {E : List Terminal → Pattern → Prop} {ts : List Terminal}

theorem IsConstraint.restates {a : String × Pattern}
    (hE : ∀ us p, E us p → (∀ t ∈ us, Scanned t) → Restates E us p.pieces p.indifferent)
    (hoperator : ∀ us p, E us p → p.operatorPiece = Piece.spaced .equals ['='])
    (h : IsConstraint limit E ts a) (hts : ∀ t ∈ ts, Scanned t) :
    Restates (IsConstraint limit E) ts (Pattern.attributePieces a) (a.1, a.2.indifferent) := by
  cases h with
  | @equals us p a l h =>
      obtain ⟨⟨behind, hscan⟩, hts'⟩ := List.forall_mem_cons.mp hts
      have hp := hE us p h (List.forall_mem_cons.mp hts').2
      rw [Pattern.attributePieces, hoperator us p h, String.toList_ofList]
      refine ⟨.equals a ['='] hp.derives, ?_, Nat.add_le_add_right hp.length_le 2⟩
      refine List.forall_mem_cons.mpr ⟨stands_name hscan, List.forall_mem_cons.mpr ⟨?_, hp.stands⟩⟩
      exact stands_operator (by decide)
  | @matching k anchor us p a l hop h =>
      obtain ⟨⟨behind, hscan⟩, hts'⟩ := List.forall_mem_cons.mp hts
      obtain ⟨kind, r, rfl, hr⟩ := h.restates (List.forall_mem_cons.mp hts').2
      rw [Pattern.attributePieces, Pattern.operatorPiece, String.toList_ofList]
      refine ⟨.matching a ['*', '='] rfl hr.derives, ?_, Nat.add_le_add_right hr.length_le 2⟩
      refine List.forall_mem_cons.mpr ⟨stands_name hscan, List.forall_mem_cons.mpr ⟨?_, hr.stands⟩⟩
      exact stands_operator (by decide)

theorem IsAttributes.restates {as : List (String × Pattern)}
    (hE : ∀ us p, E us p → (∀ t ∈ us, Scanned t) → Restates E us p.pieces p.indifferent)
    (hoperator : ∀ us p, E us p → p.operatorPiece = Piece.spaced .equals ['='])
    (h : IsAttributes limit E ts as) (hts : ∀ t ∈ ts, Scanned t) :
    Restates (IsAttributes limit E) ts
      (Pattern.angled ((Node.lastValues as).map Pattern.attributePieces))
      ((Node.lastValues as).map fun a => (a.1, a.2.indifferent)) := by
  cases h with
  | absent => exact ⟨.absent, nofun, Nat.le_refl 0⟩
  | @present us as l l' h =>
      have hus : ∀ t ∈ us, Scanned t := fun t ht =>
        hts t (List.mem_cons_of_mem _ (List.mem_append_left _ ht))
      have hne := Node.lastValues_ne_nil h.ne_nil
      have has : Restates (Separated .comma (IsConstraint limit E)) us
          (Piece.comma.joined ((Node.lastValues as).map Pattern.attributePieces))
          ((Node.lastValues as).map fun a => (a.1, a.2.indifferent)) :=
        h.restates (fun us a ha => IsConstraint.restates hE hoperator ha) hus
          (Node.lastValues_subperm as) hne rfl (stands_operator (by decide))
      rw [Pattern.angled_of_ne_nil (by simpa using hne)]
      refine ⟨?_, ?_, ?_⟩
      · rw [List.map_cons, List.map_append]
        exact .present _ _ has.derives
      · refine List.forall_mem_cons.mpr ⟨stands_operator (by decide), fun q hq => ?_⟩
        rcases List.mem_append.mp hq with hq | hq
        · exact has.stands q hq
        · obtain rfl := List.mem_singleton.mp hq
          exact stands_operator (by decide)
      · have hle := has.length_le
        simp only [List.length_cons, List.length_append, List.length_nil]
        omega

theorem IsItem.restates {x : Item Pattern}
    (hE : ∀ us p, E us p → (∀ t ∈ us, Scanned t) → Restates E us p.pieces p.indifferent)
    (h : IsItem E ts x) (hts : ∀ t ∈ ts, Scanned t) :
    Restates (IsItem E) ts (Pattern.itemPieces x) (Pattern.indifferentItem x) := by
  cases h with
  | one h =>
      have hp := hE _ _ h hts
      exact ⟨.one hp.derives, hp.stands, hp.length_le⟩
  | @many us vs p q h hq =>
      have hp := hE _ _ h fun t ht => hts t (List.mem_append_left _ ht)
      have hq := hq.restates
      refine ⟨?_, fun r hr => ?_, ?_⟩
      · rw [Pattern.itemPieces, List.map_append]
        exact .many hp.derives hq.derives
      · rcases List.mem_append.mp hr with hr | hr
        · exact hp.stands r hr
        · exact hq.stands r hr
      · rw [Pattern.itemPieces, List.length_append, List.length_append]
        exact Nat.add_le_add hp.length_le hq.length_le

theorem IsItems.restates {xs : List (Item Pattern)}
    (hE : ∀ us p, E us p → (∀ t ∈ us, Scanned t) → Restates E us p.pieces p.indifferent)
    (h : IsItems E ts xs) (hts : ∀ t ∈ ts, Scanned t) :
    Restates (IsItems E) ts
      (Piece.comma.joined (xs.map Pattern.itemPieces) ++ [tight .rightBracket [']']])
      (xs.map Pattern.indifferentItem) := by
  have hbracket : (tight .rightBracket [']']).terminal.Stands := stands_operator (by decide)
  cases h with
  | nil l => exact .singleton (.nil _) hbracket
  | @cons us xs l h =>
      have hxs := h.restates (fun us x hx => IsItem.restates hE hx)
        (fun t ht => hts t (List.mem_append_left _ ht)) (List.Subperm.refl xs) h.ne_nil
        (p := Piece.comma) rfl (stands_operator (by decide))
      refine ⟨?_, fun q hq => ?_, ?_⟩
      · rw [List.map_append]
        exact .cons _ hxs.derives
      · rcases List.mem_append.mp hq with hq | hq
        · exact hxs.stands q hq
        · obtain rfl := List.mem_singleton.mp hq
          exact hbracket
      · rw [List.length_append, List.length_append]
        exact Nat.add_le_add_right hxs.length_le 1

theorem IsPrimary.restates {p : Pattern}
    (hE : ∀ us p, E us p → (∀ t ∈ us, Scanned t) → Restates E us p.pieces p.indifferent)
    (hoperator : ∀ us p, E us p → p.operatorPiece = Piece.spaced .equals ['='])
    (h : IsPrimary limit E ts p) (hts : ∀ t ∈ ts, Scanned t) :
    Restates (IsPrimary limit E) ts p.pieces p.indifferent := by
  cases h with
  | any l => exact .singleton (.any _) (stands_keyword (by decide) (by decide) rfl nofun)
  | scalar h =>
      have hs := h.restates hts
      exact ⟨.scalar hs.derives, hs.stands, hs.length_le⟩
  | @node us as l h =>
      obtain ⟨⟨behind, hscan⟩, hus⟩ := List.forall_mem_cons.mp hts
      have has := h.restates hE hoperator hus
      have hnames :
          (((Node.lastValues as).map fun a => (a.1, a.2.indifferent)).map (·.1)).Nodup := by
        rw [List.map_map]
        exact Node.nodup_map_fst_lastValues as
      have hnode := IsPrimary.node l has.derives
      rw [Node.lastValues_of_nodup hnames] at hnode
      rw [Pattern.pieces_node, Pattern.indifferent_node, String.toList_ofList]
      exact ⟨hnode, List.forall_mem_cons.mpr ⟨stands_className hscan, has.stands⟩,
        Nat.add_le_add_right has.length_le 1⟩
  | @array us xs l h =>
      have hxs := h.restates hE (List.forall_mem_cons.mp hts).2
      rw [Pattern.pieces_array, Pattern.indifferent_array]
      exact ⟨.array _ hxs.derives,
        List.forall_mem_cons.mpr ⟨stands_operator (by decide), hxs.stands⟩,
        Nat.add_le_add_right hxs.length_le 1⟩

end

theorem IsExpression.operatorPiece {levels : Nat} {ts : List Terminal} {p : Pattern}
    (h : IsExpression limit levels ts p) : p.operatorPiece = Piece.spaced .equals ['='] := by
  cases levels with
  | zero => exact absurd h id
  | succ levels =>
      obtain ⟨ps, hps, hchoice⟩ := h
      cases hchoice with
      | single p =>
          obtain ⟨us, _, h⟩ := hps.mem p List.mem_cons_self
          cases h <;> rfl
      | choice p q ps => rfl

/-- What is denoted has a derivation from its own terminals, by induction on the expressions inside.
-/
theorem IsExpression.restates {levels : Nat} {ts : List Terminal} {p : Pattern}
    (h : IsExpression limit levels ts p) (hts : ∀ t ∈ ts, Scanned t) :
    Restates (IsExpression limit levels) ts p.pieces p.indifferent := by
  induction levels generalizing ts p with
  | zero => exact absurd h id
  | succ levels ih =>
      obtain ⟨ps, hps, hchoice⟩ := h
      have hrestates := hps.restates
        (fun us p hp => IsPrimary.restates (fun us p => ih) (fun us p => IsExpression.operatorPiece)
          hp) hts (List.Subperm.refl ps) hps.ne_nil (p := Piece.bar) rfl
        (stands_operator (by decide))
      cases hchoice with
      | single p =>
          exact ⟨⟨_, hrestates.derives, .single _⟩, hrestates.stands, hrestates.length_le⟩
      | choice p q ps =>
          rw [Pattern.pieces_choice, Pattern.indifferent_choice]
          exact ⟨⟨_, hrestates.derives, .choice _ _ _⟩, hrestates.stands, hrestates.length_le⟩

end Grammar

end TreePattern
