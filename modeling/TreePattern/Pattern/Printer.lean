import TreePattern.Pattern.Basic
import TreePattern.Tree.Printer

/-! Patterns as text. -/

namespace TreePattern.Pattern

/-- The operator before a constraint: a regular expression is searched for, all else is compared. -/
def operatorChars : Pattern → List Char
  | regexp _ _ => " *= ".toList
  | _ => " = ".toList

/-- Puts a bar between texts. -/
def barSeparated : List (List Char) → List Char
  | [] => []
  | [cs] => cs
  | cs :: rest => cs ++ " | ".toList ++ barSeparated rest

mutual

def chars : Pattern → List Char
  | any => "any".toList
  | scalar s => s.chars
  | regexp _ r => r.chars
  | node n => nodeChars n
  | choice p ps => barSeparated (p.chars :: alternativeChars ps)
  | array items => ['['] ++ commaSeparated (itemsChars items) ++ [']']

def nodeChars : Node Pattern → List Char
  | ⟨className, attributes⟩ => bracketed className (attributeChars attributes)

def attributeChars : List (String × Pattern) → List (List Char)
  | [] => []
  | (name, p) :: rest => (name.toList ++ p.operatorChars ++ p.chars) :: attributeChars rest

def alternativeChars : List Pattern → List (List Char)
  | [] => []
  | p :: ps => p.chars :: alternativeChars ps

def itemsChars : List (Item Pattern) → List (List Char)
  | [] => []
  | x :: xs => itemChars x :: itemsChars xs

def itemChars : Item Pattern → List Char
  | .one p => p.chars
  | .many q p => p.chars ++ q.chars

end

instance : ToString Pattern := ⟨fun p => .ofList p.chars⟩

end TreePattern.Pattern
