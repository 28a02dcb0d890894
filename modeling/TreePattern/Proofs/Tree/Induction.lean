import TreePattern.Tree.Printer
import TreePattern.Tree.Walk

/-! Induction over the values of a tree, with the parts of a value given by membership in its lists,
and the functions on values as maps over these lists. -/

namespace TreePattern.Value

@[elab_as_elim, induction_eliminator]
theorem induction {motive : Value → Prop} (scalar : ∀ s, motive (scalar s))
    (array : ∀ vs, (∀ v ∈ vs, motive v) → motive (array vs))
    (node : ∀ className attributes, (∀ a ∈ attributes, motive a.2) →
      motive (node ⟨className, attributes⟩)) (v : Value) : motive v := by
  refine @Value.rec motive (fun vs => ∀ v ∈ vs, motive v) (fun n => motive (.node n))
    (fun as => ∀ a ∈ as, motive a.2) (fun a => motive a.2) scalar array (fun _ h => h) ?_ ?_ node
    ?_ ?_ (fun _ _ h => h) v
  all_goals simp +contextual

/-! ## Text -/

theorem itemChars_eq (vs : List Value) : itemChars vs = vs.map chars := by
  induction vs with
  | nil => rfl
  | cons v vs ih => rw [itemChars, ih, List.map_cons]

theorem attributeChars_eq (as : List (String × Value)) :
    attributeChars as = as.map fun a => a.1.toList ++ " = ".toList ++ a.2.chars := by
  induction as with
  | nil => rfl
  | cons a as ih => rw [attributeChars, ih, List.map_cons]

/-! ## Nodes -/

theorem itemNodes_eq (vs : List Value) : itemNodes vs = vs.flatMap nodes := by
  induction vs with
  | nil => rfl
  | cons v vs ih => rw [itemNodes, ih, List.flatMap_cons]

theorem attributeNodes_eq (as : List (String × Value)) :
    attributeNodes as = as.flatMap fun a => a.2.nodes := by
  induction as with
  | nil => rfl
  | cons a as ih => rw [attributeNodes, ih, List.flatMap_cons]

theorem mem_nodes_array {vs : List Value} {t : Tree} :
    t ∈ (array vs).nodes ↔ ∃ v ∈ vs, t ∈ v.nodes := by
  rw [nodes, itemNodes_eq, List.mem_flatMap]

theorem mem_nodes_node {className : String} {as : List (String × Value)} {t : Tree} :
    t ∈ (node ⟨className, as⟩).nodes ↔ t = ⟨className, as⟩ ∨ ∃ a ∈ as, t ∈ a.2.nodes := by
  rw [nodes, nodeNodes, attributeNodes_eq, List.mem_cons, List.mem_flatMap]

/-- The nodes of a tree are the root and those below it. -/
theorem nodes_node (t : Tree) : (node t).nodes = t.preorder := by
  obtain ⟨className, as⟩ := t
  rw [nodes, nodeNodes, Tree.preorder, Tree.descendants]

end TreePattern.Value
