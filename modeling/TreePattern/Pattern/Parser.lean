import TreePattern.Pattern.Basic
import TreePattern.Pattern.Error
import TreePattern.Pattern.Options
import TreePattern.Text.Numeral
import TreePattern.Text.Quoted
import TreePattern.Token.Lexer

/-! Reading patterns.

```text
expression := primary ("|" primary)*
primary    := node | array | scalar | "any"
node       := CLASS_NAME ("<" constraint ("," constraint)* ">")?
constraint := METHOD_NAME ("=" expression | ("^=" | "$=" | "*=") (SYMBOL | STRING) | "*=" REGEXP)
array      := "[" (item ("," item)*)? "]"
item       := expression quantifier?
quantifier := "*" | "+" | "?" | "{" INTEGER "}" | "{" INTEGER? "," INTEGER? "}"
            | "{" ("even" | "odd") "}"
scalar     := INTEGER | STRING | SYMBOL | "true" | "false" | "nil"
```

A text is read from left to right, looking one token ahead; the first token that does not fit is
reported. -/

namespace TreePattern.Pattern

open Token (Kind)

/-- Reads something at a position, and returns the position behind it. -/
abbrev Parser (α : Type) := Cursor → Except PatternError (α × Cursor)

namespace Parser

/-! ## Tokens -/

def stray (e : StrayCharacter) : PatternError := .strayCharacter e.character e.offset

/-- The error for a token, or for the end of the text, that does not fit. -/
def misplaced : Option (Token × Cursor) → PatternError
  | some (t, _) => .misplacedToken t.lexeme t.offset
  | none => .endOfText

/-- The next token, if the text has not ended. -/
def peek (c : Cursor) : Except PatternError (Option (Token × Cursor)) := c.next.mapError stray

/-- Takes the next token if it has the given kind. -/
def eat (kind : Kind) : Parser Bool := fun c => do
  match ← peek c with
  | some (t, c') => return if t.kind = kind then (true, c') else (false, c)
  | none => return (false, c)

/-- Takes the next token, which must have the given kind. -/
def expect (kind : Kind) : Parser Token := fun c => do
  match ← peek c with
  | some (t, c') => if t.kind = kind then return (t, c') else throw (misplaced (some (t, c')))
  | none => throw .endOfText

/-- Takes the name of an attribute. -/
def attributeName : Parser String := fun c => do
  match ← c.nextName.mapError stray with
  | some (t, c') =>
    if t.kind = .methodName then return (.ofList t.lexeme, c') else throw (misplaced (some (t, c')))
  | none => throw .endOfText

/-- Reads `one`, and again after every token of the given kind. The first argument bounds how
often. -/
def separatedBy {α : Type} (separator : Kind) (one : Parser α) : Nat → Parser (List α)
  | 0, _ => .error .endOfText
  | fuel + 1, c => do
    let (x, c) ← one c
    let (more, c) ← eat separator c
    if more then
      let (xs, c) ← separatedBy separator one fuel c
      return (x :: xs, c)
    else return ([x], c)

/-- Reads a list with separators. Every element takes at least one character. -/
def separated {α : Type} (separator : Kind) (one : Parser α) : Parser (List α) := fun c =>
  separatedBy separator one (c.rest.length + 1) c

/-! ## Scalars and regular expressions -/

/-- The scalar that a token stands for. -/
def scalarOf (t : Token) : Except PatternError Scalar :=
  match t.kind with
  | .integer =>
    match Numeral.value? t.lexeme with
    | some n => .ok (.integer n)
    | none => .error (.integerOutOfRange t.lexeme t.offset)
  | .string => .ok (.string (.ofList (Quoted.value t.lexeme)))
  | .symbol => .ok (.symbol (.ofList (t.lexeme.drop 1)))
  | .trueKeyword => .ok (.bool true)
  | .falseKeyword => .ok (.bool false)
  | .nilKeyword => .ok .nil
  | _ => .error (.misplacedToken t.lexeme t.offset)

def compile (sizeLimit : Nat) (source : List Char) (flags : Regexp.Flags) :
    Except PatternError Regexp :=
  match Regexp.compile? (.ofList source) flags sizeLimit with
  | some r => .ok r
  | none => .error (.invalidRegexp (.ofList source))

/-- Reads what follows an operator other than the equals sign. The text of a symbol or a string
stands for itself; a regular expression is admitted only where it may match anywhere. -/
def operand (sizeLimit : Nat) (anchor : Anchor) : Parser Pattern := fun c => do
  match ← peek c with
  | none => throw .endOfText
  | some (t, c) =>
    let literal (kind : TextKind) (text : List Char) : Except PatternError (Pattern × Cursor) := do
      return (regexp kind (← compile sizeLimit (anchor.source text) {}), c)
    match t.kind, anchor with
    | .symbol, _ => literal .symbol (t.lexeme.drop 1)
    | .string, _ => literal .string (Quoted.value t.lexeme)
    | .regexp, .anywhere =>
      let (source, flags) := Regexp.split t.lexeme
      return (regexp .either (← compile sizeLimit source flags), c)
    | _, _ => throw (.misplacedToken t.lexeme t.offset)

/-! ## Quantifiers -/

/-- Reads a repetition count, if an integer comes next. -/
def count : Parser (Option (Nat × Token)) := fun c => do
  match ← peek c with
  | some (t, c') =>
    if t.kind = .integer then
      match Numeral.value? t.lexeme with
      | some n =>
        if 0 ≤ n.toInt then return (some (n.toInt.toNat, t), c')
        else throw (.misplacedToken t.lexeme t.offset)
      | none => throw (.misplacedToken t.lexeme t.offset)
    else return (none, c)
  | none => return (none, c)

/-- Reads the rest of a quantifier with the given bounds. Bounds in the wrong order are reported
at the second one. -/
def closeBounds (min : Nat) (max : Option (Nat × Token)) : Parser Quantifier := fun c => do
  let (_, c) ← expect .rightBrace c
  match Quantifier.ofBounds? min (max.map (·.1)) 1, max with
  | some q, _ => return (q, c)
  | none, some (_, t) => throw (.misplacedToken t.lexeme t.offset)
  | none, none => throw .endOfText

/-- Reads a quantifier after its opening brace. -/
def braced : Parser Quantifier := fun c => do
  let (isEven, c) ← eat .evenKeyword c
  if isEven then
    let (_, c) ← expect .rightBrace c
    return (.even, c)
  let (isOdd, c) ← eat .oddKeyword c
  if isOdd then
    let (_, c) ← expect .rightBrace c
    return (.odd, c)
  let (min, c) ← count c
  let (comma, c) ← eat .comma c
  if comma then
    let (max, c) ← count c
    closeBounds ((min.map (·.1)).getD 0) max c
  else
    match min with
    | some (n, _) => closeBounds n min c
    | none => throw (misplaced (← peek c))

/-- Reads a quantifier, if one comes next. -/
def quantifier : Parser (Option Quantifier) := fun c => do
  match ← peek c with
  | some (t, c') =>
    match t.kind with
    | .star => return (some .zeroOrMore, c')
    | .plus => return (some .oneOrMore, c')
    | .question => return (some .optional, c')
    | .leftBrace => do
      let (q, c) ← braced c'
      return (some q, c)
    | _ => return (none, c)
  | none => return (none, c)

/-! ## Patterns -/

/-- Reads an attribute with its constraint; `inner` reads an expression. -/
def constraint (sizeLimit : Nat) (inner : Parser Pattern) : Parser (String × Pattern) := fun c => do
  let (name, c) ← attributeName c
  let operator ← peek c
  match operator with
  | none => throw .endOfText
  | some (t, c) =>
    let (p, c) ←
      match t.kind with
      | .equals => inner c
      | .startsWith => operand sizeLimit .start c
      | .endsWith => operand sizeLimit .stop c
      | .contains => operand sizeLimit .anywhere c
      | _ => throw (.misplacedToken t.lexeme t.offset)
    return ((name, p), c)

/-- Reads what follows a class name. -/
def attributes (sizeLimit : Nat) (inner : Parser Pattern) : Parser (List (String × Pattern)) :=
  fun c => do
    let (present, c) ← eat .leftAngle c
    if present then
      let (as, c) ← separated .comma (constraint sizeLimit inner) c
      let (_, c) ← expect .rightAngle c
      return (as, c)
    else return ([], c)

/-- Reads an item of an array. -/
def item (inner : Parser Pattern) : Parser (Item Pattern) := fun c => do
  let (p, c) ← inner c
  let (q, c) ← quantifier c
  match q with
  | some q => return (.many q p, c)
  | none => return (.one p, c)

/-- Reads what follows the opening bracket of an array. -/
def items (inner : Parser Pattern) : Parser (List (Item Pattern)) := fun c => do
  let (isEmpty, c) ← eat .rightBracket c
  if isEmpty then return ([], c)
  else
    let (xs, c) ← separated .comma (item inner) c
    let (_, c) ← expect .rightBracket c
    return (xs, c)

/-- Reads a pattern that is no choice. -/
def primary (sizeLimit : Nat) (inner : Parser Pattern) : Parser Pattern := fun c => do
  match ← peek c with
  | none => throw .endOfText
  | some (t, c) =>
    match t.kind with
    | .className =>
      let (as, c) ← attributes sizeLimit inner c
      return (node (.ofAttributes (.ofList t.lexeme) as), c)
    | .leftBracket =>
      let (xs, c) ← items inner c
      return (array xs, c)
    | .anyKeyword => return (any, c)
    | _ => return (scalar (← scalarOf t), c)

/-- The choice between alternatives, or the only one of them. -/
def alternatives : List Pattern → Pattern
  | [] => any
  | p :: ps => ps.foldl or p

/-- Reads a pattern with at most `levels` expressions inside each other. -/
def expression (options : Options) : (levels : Nat) → Parser Pattern
  | 0, _ => .error (.nestedTooDeeply options.maxDepth)
  | levels + 1, c => do
    let inner := expression options levels
    let (ps, c) ← separated .pipe (primary options.regexSizeLimit inner) c
    return (alternatives ps, c)

end Parser

/-- The pattern that a text denotes. -/
def parse (options : Options) (text : String) : Except PatternError Pattern := do
  let (p, c) ← Parser.expression options options.maxDepth (.start text.toList)
  match ← Parser.peek c with
  | none => return p
  | some (t, _) => throw (.misplacedToken t.lexeme t.offset)

end TreePattern.Pattern
