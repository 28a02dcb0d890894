import TreePattern.Unicode.Digit
import TreePattern.Unicode.Lowercase

/-! Builder names: class names in snake case. -/

namespace TreePattern.ClassName

/-- Writes a slash for each pair of colons, from left to right. -/
def slashes : List Char → List Char
  | ':' :: ':' :: cs => '/' :: slashes cs
  | c :: cs => c :: slashes cs
  | [] => []

/-- Sets a run of two or more capitals apart from a capitalised word that it touches: of the
capitals before a small letter, the last one begins a word. `run` holds the capitals just read,
latest first. -/
def splitAcronyms (run : List Char) : List Char → List Char
  | [] => run.reverse
  | c :: cs =>
    if c.isUpper then splitAcronyms (c :: run) cs
    else
      match run with
      | last :: second :: more =>
        (if c.isLower then (second :: more).reverse ++ ['_', last] else run.reverse)
          ++ c :: splitAcronyms [] cs
      | _ => run.reverse ++ c :: splitAcronyms [] cs

/-- Sets a capital apart from a small letter or a digit before it. -/
def splitWords : List Char → List Char
  | [] => []
  | [c] => [c]
  | c :: d :: cs =>
    if (c.isLower || Unicode.isDecimalDigit c) && d.isUpper then c :: '_' :: splitWords (d :: cs)
    else c :: splitWords (d :: cs)

/-- A class name in snake case. -/
def underscore (name : List Char) : List Char :=
  Unicode.lowercase ((splitWords (splitAcronyms [] (slashes name))).map fun c =>
    if c = '-' then '_' else c)

/-- Words that are no builder names, since they mean something else where builders are used. -/
def reservedWords : List String := [
  "for", "if", "alias", "next", "not", "super", "when", "case", "while", "yield", "class", "module",
  "and", "break", "send"]

/-- The builder name of a class. A reserved word is avoided by an underscore in front. -/
def builderName (className : String) : String :=
  let name := String.ofList (underscore className.toList)
  if name ∈ reservedWords then "_" ++ name else name

end TreePattern.ClassName
