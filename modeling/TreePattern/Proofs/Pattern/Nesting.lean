import TreePattern.Pattern.Basic

/-! How deep a pattern is nested. A choice is as deep as its alternatives, and the constraints of an
attribute by a regular expression have no depth. -/

namespace TreePattern.Pattern

mutual

/-- How many expressions stand inside each other in the text of a pattern. -/
def nesting : Pattern → Nat
  | any => 1
  | scalar _ => 1
  | regexp _ _ => 0
  | node n => nodeNesting n
  | choice p ps => max p.nesting (choiceNesting ps)
  | array xs => itemsNesting xs + 1

def nodeNesting : Node Pattern → Nat
  | ⟨_, attributes⟩ => attributesNesting attributes + 1

def attributesNesting : List (String × Pattern) → Nat
  | [] => 0
  | (_, p) :: rest => max p.nesting (attributesNesting rest)

def choiceNesting : List Pattern → Nat
  | [] => 0
  | p :: ps => max p.nesting (choiceNesting ps)

def itemsNesting : List (Item Pattern) → Nat
  | [] => 0
  | x :: xs => max (itemNesting x) (itemsNesting xs)

def itemNesting : Item Pattern → Nat
  | .one p | .many _ p => p.nesting

end

variable {n : Nat}

theorem nesting_node_le_iff {className : String} {as : List (String × Pattern)} :
    (node ⟨className, as⟩).nesting ≤ n + 1 ↔ ∀ a ∈ as, a.2.nesting ≤ n := by
  rw [nesting, nodeNesting, Nat.add_le_add_iff_right]
  induction as with
  | nil => simp [attributesNesting]
  | cons a as ih => rw [attributesNesting, Nat.max_le, ih, List.forall_mem_cons]

theorem nesting_choice_le_iff {p : Pattern} {ps : List Pattern} :
    (choice p ps).nesting ≤ n ↔ ∀ q ∈ p :: ps, q.nesting ≤ n := by
  rw [nesting, Nat.max_le, List.forall_mem_cons]
  refine and_congr_right fun _ => ?_
  induction ps with
  | nil => simp [choiceNesting]
  | cons q ps ih => rw [choiceNesting, Nat.max_le, ih, List.forall_mem_cons]

theorem itemNesting_eq (x : Item Pattern) : itemNesting x = x.pattern.nesting := by
  cases x <;> rw [itemNesting, Item.pattern]

theorem nesting_array_le_iff {xs : List (Item Pattern)} :
    (array xs).nesting ≤ n + 1 ↔ ∀ x ∈ xs, x.pattern.nesting ≤ n := by
  rw [nesting, Nat.add_le_add_iff_right]
  induction xs with
  | nil => simp [itemsNesting]
  | cons x xs ih => rw [itemsNesting, Nat.max_le, itemNesting_eq, ih, List.forall_mem_cons]

end TreePattern.Pattern
