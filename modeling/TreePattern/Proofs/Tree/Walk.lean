import TreePattern.Proofs.Tree.Induction
import TreePattern.Query

/-! The walk with a stack against the recursive pre-order. The nodes in the values on the stack are
those that are still to be visited, in this order; looking at the top of the stack visits the first
of them or leaves them as they are. Main statement: a query finds the nodes that its pattern
accepts, in pre-order. -/

namespace TreePattern

namespace Value

/-! ## The walk -/

section

variable {σ : Type} (visit : σ → Tree → σ)

theorem nodes_eq (t : Tree) : (node t).nodes = t :: (t.attributes.map (·.2)).flatMap nodes := by
  obtain ⟨className, as⟩ := t
  rw [nodes, nodeNodes, attributeNodes_eq, List.flatMap_map]

/-- A look at the top of the stack leaves the same visits to be made. -/
theorem foldl_look (s : σ) (stack : List Value) (v : Value) :
    ((look visit s stack v).2.flatMap nodes).foldl visit (look visit s stack v).1 =
      ((v :: stack).flatMap nodes).foldl visit s := by
  rw [List.flatMap_cons]
  cases v with
  | scalar t => rw [look, nodes, List.nil_append]
  | array items => rw [look, nodes, itemNodes_eq, push_eq_append, List.flatMap_append]
  | node n =>
      rw [look, nodes_eq, push_eq_append, List.flatMap_append, List.cons_append, List.foldl_cons]

/-- By induction on the looks: the visits made and those still to be made stay the same. -/
theorem walkFrom_eq (s : σ) (stack : List Value) :
    walkFrom visit s stack = (stack.flatMap nodes).foldl visit s := by
  induction s, stack using walkFrom.induct visit with
  | case1 s => rw [walkFrom, List.flatMap_nil, List.foldl_nil]
  | case2 s v stack r ih => rw [walkFrom, ih, foldl_look]

end

theorem sizeOf_le_of_mem_nodes {t : Tree} {v : Value} (h : t ∈ v.nodes) :
    sizeOf (node t) ≤ sizeOf v := by
  induction v with
  | scalar s => cases h
  | array vs ih =>
      obtain ⟨v, hv, ht⟩ := mem_nodes_array.mp h
      have hsize := ih v hv ht
      have hmem := List.sizeOf_lt_of_mem hv
      rw [array.sizeOf_spec]
      omega
  | node className as ih =>
      rcases mem_nodes_node.mp h with rfl | ⟨a, ha, ht⟩
      · exact Nat.le_refl _
      · have hsize := ih a ha ht
        have hmem := List.sizeOf_lt_of_mem ha
        obtain ⟨name, v⟩ := a
        rw [Prod.mk.sizeOf_spec] at hmem
        simp only [node.sizeOf_spec, Node.mk.sizeOf_spec] at hsize ⊢
        omega

end Value

namespace Tree

theorem walk_eq {σ : Type} (visit : σ → Tree → σ) (s : σ) (t : Tree) :
    t.walk visit s = t.preorder.tail.foldl visit s := by
  rw [walk, Value.walkFrom_eq, Value.push_eq_append, List.append_nil, ← Value.nodes_node,
    Value.nodes_eq, List.tail_cons]

/-- No node stands below itself: what is below it is smaller. -/
theorem not_mem_tail_preorder (t : Tree) : t ∉ t.preorder.tail := by
  obtain ⟨className, as⟩ := t
  rw [← Value.nodes_node, Value.nodes_eq, List.tail_cons, List.mem_flatMap]
  rintro ⟨v, hv, ht⟩
  obtain ⟨⟨name, v⟩, ha, rfl⟩ := List.mem_map.mp hv
  have hsize := Value.sizeOf_le_of_mem_nodes ht
  have hmem := List.sizeOf_lt_of_mem ha
  simp only [Prod.mk.sizeOf_spec, Value.node.sizeOf_spec, Node.mk.sizeOf_spec] at hmem hsize
  omega

end Tree

namespace Query

/-! ## Finding -/

/-- By induction on the nodes: each one is kept if it is accepted, and counted in any case. -/
theorem foldl_keep (p : Pattern) (ns : List Tree) (found : Array (Tree × Nat)) (position : Nat) :
    (ns.foldl (keep p) (found, position)).1.toList =
      found.toList ++ (ns.zipIdx position).filter fun n => p.acceptsTree n.1 := by
  induction ns generalizing found position with
  | nil => simp
  | cons n ns ih =>
      rw [List.foldl_cons, keep, ih, List.zipIdx_cons]
      by_cases h : p.acceptsTree n <;> simp [h]

theorem find_eq (q : Query) (t : Tree) : q.find t = q.toPattern.map fun p =>
    t.preorder.zipIdx.filter fun n => p.acceptsTree n.1 := by
  unfold find
  cases q.toPattern with
  | error e => rfl
  | ok p =>
      have hwalk : t.walk (keep p) (keep p (#[], 0) t) = t.preorder.foldl (keep p) (#[], 0) := by
        rw [Tree.walk_eq, Tree.preorder, List.foldl_cons, List.tail_cons]
      change Except.ok (t.walk (keep p) (keep p (#[], 0) t)).1.toList = .ok _
      rw [hwalk, foldl_keep, Array.toList_empty, List.nil_append]

/-- A search returns the error of its pattern, or the nodes that the pattern accepts in pre-order,
each position once; for the walk visits what is below the root in this order, and never the root. -/
theorem find_eq_filter_preorder (t : Tree) :
    (∀ s, (text s).find t = (Pattern.parse {} s).map fun p =>
        t.preorder.zipIdx.filter fun n => p.acceptsTree n.1) ∧
      (∀ p, (pattern p).find t = .ok (t.preorder.zipIdx.filter fun n => p.acceptsTree n.1)) ∧
      (∀ {σ : Type} (visit : σ → Tree → σ) (s : σ),
        t.walk visit s = t.preorder.tail.foldl visit s) ∧ t ∉ t.preorder.tail :=
  ⟨fun s => find_eq (text s) t, fun p => find_eq (pattern p) t, fun visit s => t.walk_eq visit s,
    t.not_mem_tail_preorder⟩

end Query

end TreePattern
