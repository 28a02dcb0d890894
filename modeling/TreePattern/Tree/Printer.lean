import TreePattern.Text.Numeral
import TreePattern.Text.Quoted
import TreePattern.Tree.Value

/-! Trees as text. A node is written as the pattern that asks for its class and its attributes. -/

namespace TreePattern

namespace Scalar

def chars : Scalar → List Char
  | nil => "nil".toList
  | bool true => "true".toList
  | bool false => "false".toList
  | integer n => Numeral.ofInt64 n
  | string s => Quoted.encode s.toList
  | symbol name => ':' :: name.toList

end Scalar

/-- Puts a comma and a space between texts. -/
def commaSeparated : List (List Char) → List Char
  | [] => []
  | [cs] => cs
  | cs :: rest => cs ++ [',', ' '] ++ commaSeparated rest

/-- A class name with constraints in angle brackets, which are left out if there are none. -/
def bracketed (className : String) (constraints : List (List Char)) : List Char :=
  if constraints.isEmpty then className.toList
  else className.toList ++ ['<'] ++ commaSeparated constraints ++ ['>']

namespace Value

mutual

def chars : Value → List Char
  | scalar s => s.chars
  | array items => ['['] ++ commaSeparated (itemChars items) ++ [']']
  | node n => nodeChars n

def nodeChars : Node Value → List Char
  | ⟨className, attributes⟩ => bracketed className (attributeChars attributes)

def itemChars : List Value → List (List Char)
  | [] => []
  | v :: vs => v.chars :: itemChars vs

def attributeChars : List (String × Value) → List (List Char)
  | [] => []
  | (name, v) :: rest => (name.toList ++ " = ".toList ++ v.chars) :: attributeChars rest

end

instance : ToString Value := ⟨fun v => .ofList v.chars⟩

end Value

namespace Tree

def chars (t : Tree) : List Char := Value.nodeChars t

instance : ToString Tree := ⟨fun t => .ofList t.chars⟩

end Tree

end TreePattern
