/-! Nodes: a class and named attributes. The nodes of a tree hold values as attributes, the nodes
of a pattern hold patterns. -/

namespace TreePattern

/-- A class name with attributes, in the order in which they were first set. -/
structure Node (α : Type) where
  className : String
  attributes : List (String × α) := []
  deriving Repr

namespace Node

variable {α : Type}

/-- Replaces the value of a name in place, or adds the name at the end. -/
def setIn (name : String) (value : α) : List (String × α) → List (String × α)
  | [] => [(name, value)]
  | (key, old) :: rest =>
    if key = name then (key, value) :: rest else (key, old) :: setIn name value rest

def set (n : Node α) (name : String) (value : α) : Node α :=
  { n with attributes := setIn name value n.attributes }

def get? (n : Node α) (name : String) : Option α := n.attributes.lookup name

def names (n : Node α) : List String := n.attributes.map (·.1)

def size (n : Node α) : Nat := n.attributes.length

/-- The node with attributes set in turn. -/
def ofAttributes (className : String) (attributes : List (String × α)) : Node α :=
  attributes.foldl (fun n a => n.set a.1 a.2) { className }

theorem lookup_setIn (name key : String) (value : α) (l : List (String × α)) :
    (setIn name value l).lookup key = if key = name then some value else l.lookup key := by
  induction l with
  | nil => by_cases h : key = name <;> simp [setIn, List.lookup_cons, h, beq_false_of_ne]
  | cons a rest ih =>
    obtain ⟨k, old⟩ := a
    by_cases hk : k = name
    · subst hk
      by_cases h : key = k <;> simp [setIn, List.lookup_cons, h, beq_false_of_ne]
    · by_cases h : key = k
      · subst h
        simp [setIn, hk]
      · simp [setIn, List.lookup_cons, hk, h, ih, beq_false_of_ne]

theorem get?_set (n : Node α) (name key : String) (value : α) :
    (n.set name value).get? key = if key = name then some value else n.get? key :=
  lookup_setIn name key value n.attributes

end Node

end TreePattern
