import TreePattern.Pattern.Matching
import TreePattern.Pattern.Parser
import TreePattern.Tree.Walk

/-! Queries: looking for the nodes of a tree that a pattern accepts. -/

namespace TreePattern

/-- A pattern, or a text that is read as one. -/
inductive Query where
  | text (s : String)
  | pattern (p : Pattern)

namespace Query

def toPattern : Query → Except PatternError Pattern
  | text s => Pattern.parse {} s
  | pattern p => .ok p

/-- Whether the root of a tree is accepted. -/
def accepts (q : Query) (t : Tree) : Except PatternError Bool := do
  return (← q.toPattern).acceptsTree t

/-- Keeps a node that the pattern accepts, with the number of nodes looked at before it. -/
def keep (p : Pattern) : Array (Tree × Nat) × Nat → Tree → Array (Tree × Nat) × Nat
  | (found, position), n =>
    (if p.acceptsTree n then found.push (n, position) else found, position + 1)

/-- The accepted nodes of a tree, each with its position in pre-order. The pattern is read before
the walk starts, and the root is looked at first. -/
def find (q : Query) (t : Tree) : Except PatternError (List (Tree × Nat)) := do
  let p ← q.toPattern
  let root := keep p (#[], 0) t
  return (t.walk (keep p) root).1.toList

end Query

end TreePattern
