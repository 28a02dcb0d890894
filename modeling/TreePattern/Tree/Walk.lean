import TreePattern.Tree.Value

/-! The nodes of a tree in pre-order: a node comes before the nodes in its attributes, attributes
and array items keep their order. They are listed by recursion, and visited by a walk that keeps
the values it has still to look at on a stack. -/

namespace TreePattern

namespace Value

mutual

/-- The nodes in a value. -/
def nodes : Value → List Tree
  | scalar _ => []
  | array items => itemNodes items
  | node n => nodeNodes n

def nodeNodes : Node Value → List Tree
  | ⟨className, attributes⟩ => ⟨className, attributes⟩ :: attributeNodes attributes

def itemNodes : List Value → List Tree
  | [] => []
  | v :: vs => v.nodes ++ itemNodes vs

def attributeNodes : List (String × Value) → List Tree
  | [] => []
  | (_, v) :: rest => v.nodes ++ attributeNodes rest

end

/-! ## The walk with a stack -/

/-- Puts values on a stack one by one, the last of them first. -/
def push (vs stack : List Value) : List Value := vs.reverse.foldl (fun stack v => v :: stack) stack

theorem push_eq_append (vs stack : List Value) : push vs stack = vs ++ stack := by
  rw [push, List.foldl_reverse, List.foldr_cons_eq_append, List.map_id']

/-- Looks at a value that was on top of the stack: a node is visited, and what the value has inside
goes on the stack. -/
def look {σ : Type} (visit : σ → Tree → σ) (s : σ) (stack : List Value) : Value → σ × List Value
  | scalar _ => (s, stack)
  | array items => (s, push items stack)
  | node n => (visit s n, push (n.attributes.map (·.2)) stack)

theorem sizeOf_append (vs ws : List Value) : sizeOf (vs ++ ws) + 1 = sizeOf vs + sizeOf ws := by
  induction vs with
  | nil => exact Nat.add_comm _ 1
  | cons v vs ih =>
      simp only [List.cons_append, List.cons.sizeOf_spec]
      omega

theorem sizeOf_map_snd_le (as : List (String × Value)) : sizeOf (as.map (·.2)) ≤ sizeOf as := by
  induction as with
  | nil => exact Nat.le_refl _
  | cons a as ih =>
      obtain ⟨name, v⟩ := a
      simp only [List.map_cons, List.cons.sizeOf_spec, Prod.mk.sizeOf_spec]
      omega

/-- The stack gets smaller, whatever value was on top of it. -/
theorem sizeOf_look_lt {σ : Type} (visit : σ → Tree → σ) (s : σ) (v : Value) (stack : List Value) :
    sizeOf (look visit s stack v).2 < sizeOf (v :: stack) := by
  cases v with
  | scalar t =>
      simp only [look, List.cons.sizeOf_spec, scalar.sizeOf_spec]
      omega
  | array items =>
      have happend := sizeOf_append items stack
      simp only [look, push_eq_append, List.cons.sizeOf_spec, array.sizeOf_spec]
      omega
  | node n =>
      obtain ⟨className, attributes⟩ := n
      have happend := sizeOf_append (attributes.map (·.2)) stack
      have hvalues := sizeOf_map_snd_le attributes
      simp only [look, push_eq_append, List.cons.sizeOf_spec, node.sizeOf_spec, Node.mk.sizeOf_spec]
      omega

/-- Looks at the values on a stack until none is left. -/
def walkFrom {σ : Type} (visit : σ → Tree → σ) (s : σ) : List Value → σ
  | [] => s
  | v :: stack =>
    let r := look visit s stack v
    walkFrom visit r.1 r.2
termination_by stack => sizeOf stack
decreasing_by exact sizeOf_look_lt visit s v stack

end Value

namespace Tree

/-- The nodes below the root. -/
def descendants (t : Tree) : List Tree := Value.attributeNodes t.attributes

def preorder (t : Tree) : List Tree := t :: t.descendants

/-- Visits the nodes below the root in pre-order. -/
def walk {σ : Type} (visit : σ → Tree → σ) (s : σ) (t : Tree) : σ :=
  Value.walkFrom visit s (Value.push (t.attributes.map (·.2)) [])

end Tree

end TreePattern
