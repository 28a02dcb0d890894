import TreePattern.Proofs.Printing.RoundTrip
import TreePattern.Proofs.Tree.Spelling

/-! Printed trees read as patterns. Unless a node ends in a symbol that runs together with the
bracket behind it, its text is read as the pattern that asks for its class and its attributes. -/

namespace TreePattern

open Pattern (EndsIn Fuses HasFusion)
open Grammar (IsExpression Restates)

/-- Whether the last attribute of a node is a symbol that the closing bracket makes longer. -/
def Tree.EndsInFusion (t : Tree) : Prop :=
  ∃ a, t.attributes.getLast? = some a ∧
    (a.2 = .scalar (.symbol ">") ∨ a.2 = .scalar (.symbol "<="))

namespace Value

theorem endsIn_toPattern_iff {s : String} {v : Value} :
    EndsIn s v.toPattern ↔ v = scalar (.symbol s) := by
  rw [Pattern.endsIn_iff (isChoice_toPattern v)]
  cases v <;> simp [toPattern]

theorem fuses_toPattern_node_iff (className : String) (as : List (String × Value)) :
    Fuses (node ⟨className, as⟩).toPattern ↔ Tree.EndsInFusion ⟨className, as⟩ := by
  rw [toPattern_node]
  cases hlast : as.getLast? with
  | none =>
      obtain rfl := List.getLast?_eq_none_iff.mp hlast
      apply iff_of_false
      · rintro (_ | _ | ⟨ha, _⟩)
        cases ha
      · rintro ⟨a, ha, _⟩
        cases ha
  | some a =>
      have hlast' :
          (as.map fun a => (a.1, a.2.toPattern)).getLast? = some (a.1, a.2.toPattern) := by
        rw [List.getLast?_map, hlast, Option.map_some]
      rw [Pattern.fuses_node_iff hlast']
      simp only [endsIn_toPattern_iff, Tree.EndsInFusion, hlast, Option.some.injEq, exists_eq_left']

/-- Something is run together in the text of a value where a node ends in such a symbol. -/
theorem hasFusion_toPattern_iff (v : Value) :
    HasFusion v.toPattern ↔ ∃ t ∈ v.nodes, t.EndsInFusion := by
  induction v with
  | scalar s =>
      apply iff_of_false
      · rintro ⟨_, ⟨⟩, ⟨⟩⟩
      · simp [nodes]
  | array vs ih =>
      have hitems : ¬ Fuses (.array (vs.map fun v => .one v.toPattern)) := by
        rw [Pattern.fuses_array_iff]
        simp [Pattern.FusesItem]
      rw [toPattern_array, Pattern.hasFusion_array_iff, or_iff_right hitems]
      simp only [List.mem_map, exists_exists_and_eq_and, Item.pattern, mem_nodes_array]
      constructor
      · rintro ⟨v, hv, hfusion⟩
        obtain ⟨t, ht, hends⟩ := (ih v hv).mp hfusion
        exact ⟨t, ⟨v, hv, ht⟩, hends⟩
      · rintro ⟨t, ⟨v, hv, ht⟩, hends⟩
        exact ⟨v, hv, (ih v hv).mpr ⟨t, ht, hends⟩⟩
  | node className as ih =>
      have hroot := fuses_toPattern_node_iff className as
      rw [toPattern_node] at hroot ⊢
      rw [Pattern.hasFusion_node_iff, hroot]
      simp only [List.mem_map, exists_exists_and_eq_and, mem_nodes_node]
      constructor
      · rintro (hends | ⟨a, ha, hfusion⟩)
        · exact ⟨_, .inl rfl, hends⟩
        · obtain ⟨t, ht, hends⟩ := (ih a ha).mp hfusion
          exact ⟨t, .inr ⟨a, ha, ht⟩, hends⟩
      · rintro ⟨t, rfl | ⟨a, ha, ht⟩, hends⟩
        · exact .inl hends
        · exact .inr ⟨a, ha, (ih a ha).mpr ⟨t, ht, hends⟩⟩

theorem Spelled.restates {v : Value} (h : Spelled v) (limit : Nat) {levels : Nat}
    (hdepth : v.depth ≤ levels) : Restates (IsExpression limit levels)
      (v.toPattern.pieces.map Piece.terminal) v.toPattern.pieces v.toPattern where
  derives := h.derives limit hdepth
  stands := h.stands
  length_le := by simp

theorem Spelled.apart_iff {v : Value} (h : Spelled v) :
    Piece.Apart v.toPattern.pieces ↔ ¬ ∃ t ∈ v.nodes, t.EndsInFusion := by
  rw [← hasFusion_toPattern_iff]
  exact Pattern.apart_pieces_iff (h.derives 0 (Nat.le_refl _)).wellFormed h.stands

end Value

namespace Tree

open Value (Spelled)

theorem toString_toPattern (t : Tree) : toString (Value.node t).toPattern = toString t :=
  congrArg String.ofList (Value.chars_toPattern (.node t))

/-- The text of a tree is read as the pattern that asks for the tree. -/
theorem parse_toString {options : Options} {t : Tree} (h : Spelled (.node t))
    (hdepth : (Value.node t).depth ≤ options.maxDepth)
    (hends : ¬ ∃ u ∈ t.preorder, u.EndsInFusion) :
    Pattern.parse options (toString t) = .ok (Value.node t).toPattern := by
  rw [← Value.nodes_node] at hends
  rw [← toString_toPattern]
  exact Pattern.parse_of_restates (h.restates _ hdepth) (h.apart_iff.mpr hends)

/-- What a printed tree matches: its text is read as a pattern that is printed as the same text, and
that accepts exactly the trees that cover the printed one. -/
theorem reads_as_cover (t : Tree) (h : Spelled (.node t)) (hdepth : (Value.node t).depth ≤ 128)
    (hlast : ∀ u ∈ t.preorder, ∀ a, u.attributes.getLast? = some a →
      a.2 ≠ .scalar (.symbol ">") ∧ a.2 ≠ .scalar (.symbol "<=")) :
    ∃ m, Pattern.parse {} (toString t) = .ok m ∧ toString m = toString t ∧
      ∀ u : Tree, m.acceptsTree u = true ↔ Value.Covers (.node u) (.node t) := by
  have hends : ¬ ∃ u ∈ t.preorder, u.EndsInFusion := by
    rintro ⟨u, hu, a, ha, hsymbol⟩
    obtain ⟨hgreater, hless⟩ := hlast u hu a ha
    exact hsymbol.elim hgreater hless
  exact ⟨_, parse_toString h hdepth hends, toString_toPattern t, t.acceptsTree_toPattern_iff⟩

theorem reads_as_cover_setter : ∃ t : Tree,
    t = ⟨"Foo", [("a=", .scalar (.symbol "<=")), ("<=>", .array [.scalar (.symbol "b?")])]⟩ ∧
      Spelled (.node t) ∧ (Value.node t).depth ≤ 128 ∧
      (∀ u ∈ t.preorder, ∀ a, u.attributes.getLast? = some a →
        a.2 ≠ .scalar (.symbol ">") ∧ a.2 ≠ .scalar (.symbol "<=")) ∧
      ∃ m, Pattern.parse {} (toString t) = .ok m ∧ toString m = toString t ∧
        ∀ u : Tree, m.acceptsTree u = true ↔ Value.Covers (.node u) (.node t) := by
  have hless : Scalar.Spelled (.symbol "<=") := by
    rintro _ ⟨⟩
    exact ⟨['<', '='], rfl, .inr (by decide)⟩
  have hquestion : Scalar.Spelled (.symbol "b?") := by
    rintro _ ⟨⟩
    exact ⟨['b', '?'], rfl, .inl ⟨'b', [], ['?'], rfl, by decide, nofun, by simp⟩⟩
  have hspelled : Spelled (.node
      ⟨"Foo", [("a=", .scalar (.symbol "<=")), ("<=>", .array [.scalar (.symbol "b?")])]⟩) := by
    refine .node ⟨'F', ['o', 'o'], rfl, by decide, List.all_eq_true.mp rfl⟩ (by decide) ?_ ?_
    · simp only [List.forall_mem_cons, List.not_mem_nil, false_implies, implies_true, and_true]
      exact ⟨@Token.IsAttributeName.setter 'a' [] ⟨by decide, nofun, by simp⟩,
        .operator (by decide)⟩
    · simp only [List.forall_mem_cons, List.not_mem_nil, false_implies, implies_true, and_true]
      exact ⟨.scalar hless, .array (by simpa using .scalar hquestion)⟩
  have hdepth : (Value.node ⟨"Foo", [("a=", .scalar (.symbol "<=")),
      ("<=>", .array [.scalar (.symbol "b?")])]⟩).depth ≤ 128 := by
    simp [Value.depth, Value.nodeDepth, Value.attributesDepth, Value.itemsDepth]
  have hlast : ∀ u ∈ Tree.preorder ⟨"Foo", [("a=", .scalar (.symbol "<=")),
      ("<=>", .array [.scalar (.symbol "b?")])]⟩, ∀ a, u.attributes.getLast? = some a →
        a.2 ≠ .scalar (.symbol ">") ∧ a.2 ≠ .scalar (.symbol "<=") := by
    simp [preorder, descendants, Value.attributeNodes, Value.nodes, Value.itemNodes]
  exact ⟨_, rfl, hspelled, hdepth, hlast, reads_as_cover _ hspelled hdepth hlast⟩

end Tree

end TreePattern
