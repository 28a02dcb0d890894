import TreePattern.Pattern.Quantifier
import TreePattern.Pattern.Regexp
import TreePattern.Tree.Value

/-! Patterns for the values of a tree. -/

namespace TreePattern

/-- The values whose text a regular expression is compared with. -/
inductive TextKind where
  | symbol
  | string
  | either
  deriving DecidableEq, Repr

/-- An item of an array pattern: for one element, or for as many as a quantifier allows. -/
inductive Item (α : Type) where
  | one (p : α)
  | many (q : Quantifier) (p : α)

/-- The pattern of an item. -/
def Item.pattern {α : Type} : Item α → α
  | one p | many _ p => p

inductive Pattern where
  | any
  | scalar (s : Scalar)
  | regexp (kind : TextKind) (r : Regexp)
  | node (n : Node Pattern)
  | choice (first : Pattern) (others : List Pattern)
  | array (items : List (Item Pattern))

namespace Pattern

/-- The choice between the given patterns, of which there has to be one. -/
def choice? : List Pattern → Option Pattern
  | [] => none
  | p :: ps => some (choice p ps)

/-- Adds an alternative to a choice, or makes a choice of two patterns. -/
def or : Pattern → Pattern → Pattern
  | choice first others, p => choice first (others ++ [p])
  | p, q => choice p [q]

end Pattern

end TreePattern
