/-! The kinds of tokens, and the spellings of those that have a fixed one. -/

namespace TreePattern.Token

inductive Kind where
  | className
  | variableName
  | methodName
  | symbol
  | integer
  | string
  | regexp
  | trueKeyword
  | falseKeyword
  | nilKeyword
  | anyKeyword
  | evenKeyword
  | oddKeyword
  | pipe
  | leftAngle
  | rightAngle
  | comma
  | equals
  | startsWith
  | endsWith
  | contains
  | leftBracket
  | rightBracket
  | leftBrace
  | rightBrace
  | star
  | plus
  | question
  deriving DecidableEq, Repr

namespace Kind

/-- The kind of a variable name that is a keyword. -/
def keyword? (word : List Char) : Option Kind :=
  match String.ofList word with
  | "true" => some .trueKeyword
  | "false" => some .falseKeyword
  | "nil" => some .nilKeyword
  | "any" => some .anyKeyword
  | "even" => some .evenKeyword
  | "odd" => some .oddKeyword
  | _ => none

/-- Whether the kind joins the name of an attribute and its constraint. -/
def isAttributeOperator (k : Kind) : Bool :=
  k == equals || k == startsWith || k == endsWith || k == contains

end Kind

/-- Operators and brackets. -/
def operators : List (List Char × Kind) := [
  (['|'], .pipe), (['<'], .leftAngle), (['>'], .rightAngle), ([','], .comma), (['='], .equals),
  (['^', '='], .startsWith), (['$', '='], .endsWith), (['*', '='], .contains),
  (['['], .leftBracket), ([']'], .rightBracket), (['\x7b'], .leftBrace), (['\x7d'], .rightBrace),
  (['*'], .star), (['+'], .plus), (['?'], .question)]

/-- Spellings of operators that name methods, and therefore attributes and symbols. -/
def operatorNames : List (List Char) := [
  ['[', ']', '='], ['<', '=', '>'], ['=', '=', '='], ['[', ']'], ['=', '='], ['=', '~'],
  ['!', '='], ['!', '~'], ['<', '<'], ['<', '='], ['>', '>'], ['>', '='], ['*', '*'], ['+', '@'],
  ['-', '@'], ['+'], ['-'], ['*'], ['/'], ['%'], ['&'], ['|'], ['^'], ['~'], ['!'], ['<'], ['>'],
  [Char.ofNat 0x60]]

end TreePattern.Token
