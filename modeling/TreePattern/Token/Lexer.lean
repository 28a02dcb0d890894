import TreePattern.Token.Lexeme

/-! Dividing a text into tokens. Of all lexemes that begin at a position the longest counts; white
space separates tokens and has no other meaning. -/

namespace TreePattern

namespace Token

/-- The lexemes of all kinds that a text begins with. -/
def lexemes (cs : List Char) : List (Kind × List Char) :=
  ((operators.filter (·.1.isPrefixOf cs)).map fun op => (op.2, op.1)) ++
    [(variableName? cs).map fun l => ((Kind.keyword? l).getD .variableName, l),
     (className? cs).map (.className, ·),
     (symbol? cs).map (.symbol, ·),
     (integer? cs).map (.integer, ·),
     (string? cs).map (.string, ·),
     (regexp? cs).map (.regexp, ·)].reduceOption

/-- The longest lexeme that a text begins with. -/
def lexeme? (cs : List Char) : Option (Kind × List Char) := longest (·.2.length) (lexemes cs)

/-- White space. -/
def isBlank (c : Char) : Bool := c == ' ' || c == '\t' || c == '\r' || c == '\n'

/-- Whether an attribute operator comes next. -/
def operatorFollows (cs : List Char) : Bool :=
  let rest := cs.dropWhile isBlank
  [['='], ['^', '='], ['$', '='], ['*', '=']].any (·.isPrefixOf rest)

/-- The lexeme of an attribute name. An equals sign belongs to the name of a setter only if an
attribute operator follows it. -/
def methodName? (cs : List Char) : Option (List Char) :=
  let name := (identifier? cs).map fun l =>
    match l.getLast?, cs.drop l.length with
    | some '?', _ | some '!', _ => l
    | _, '=' :: rest => if operatorFollows rest then l ++ ['='] else l
    | _, _ => l
  let names := operatorNames.filter fun n => n != ['[', ']', '='] || operatorFollows (cs.drop 3)
  longer List.length name (operatorName? names cs)

end Token

/-- A token: its kind, its text, and where it begins in bytes of UTF-8. -/
structure Token where
  kind : Token.Kind
  lexeme : List Char
  offset : Nat
  deriving DecidableEq, Repr

/-- A position in a text: its distance from the start in bytes of UTF-8, and what follows. -/
structure Cursor where
  offset : Nat
  rest : List Char
  deriving DecidableEq, Repr

/-- A character that begins no token, and where it stands. -/
structure StrayCharacter where
  character : Char
  offset : Nat
  deriving DecidableEq, Repr

namespace Cursor

def start (text : List Char) : Cursor := ⟨0, text⟩

def utf8Length (cs : List Char) : Nat := (cs.map Char.utf8Size).foldl (· + ·) 0

/-- The position behind the next `n` characters. -/
def advance (c : Cursor) (n : Nat) : Cursor :=
  ⟨c.offset + utf8Length (c.rest.take n), c.rest.drop n⟩

def skipBlank (c : Cursor) : Cursor := c.advance (c.rest.takeWhile Token.isBlank).length

/-- The token of the given kind and text that stands at a position, and the position behind it. -/
def token (c : Cursor) (kind : Token.Kind) (lexeme : List Char) : Token × Cursor :=
  (⟨kind, lexeme, c.offset⟩, c.advance lexeme.length)

/-- The next token, if the text has not ended. -/
def next (c : Cursor) : Except StrayCharacter (Option (Token × Cursor)) :=
  let c := c.skipBlank
  match c.rest with
  | [] => .ok none
  | d :: _ =>
    match Token.lexeme? c.rest with
    | some (kind, lexeme) => .ok (some (c.token kind lexeme))
    | none => .error ⟨d, c.offset⟩

/-- The next token where an attribute name is expected. -/
def nextName (c : Cursor) : Except StrayCharacter (Option (Token × Cursor)) :=
  let c := c.skipBlank
  match Token.methodName? c.rest with
  | some lexeme => .ok (some (c.token .methodName lexeme))
  | none => c.next

/-- One way of asking for a token. -/
inductive Request where
  | token
  | name
  deriving DecidableEq, Repr

def answer (c : Cursor) : Request → Except StrayCharacter (Option (Token × Cursor))
  | .token => c.next
  | .name => c.nextName

/-- The answers to a series of requests. One that yields no token leaves the position as it is. -/
def answers (c : Cursor) : List Request → List (Except StrayCharacter (Option Token))
  | [] => []
  | r :: rs =>
    match c.answer r with
    | .ok (some (t, c)) => .ok (some t) :: c.answers rs
    | .ok none => .ok none :: c.answers rs
    | .error e => .error e :: c.answers rs

/-- All tokens up to the end of the text. -/
def tokensFrom : Nat → Cursor → Except StrayCharacter (List Token)
  | 0, _ => .ok []
  | fuel + 1, c => do
    match ← c.next with
    | none => return []
    | some (t, c) => return t :: (← tokensFrom fuel c)

end Cursor

/-- The tokens of a text. -/
def tokenize (text : String) : Except StrayCharacter (List Token) :=
  Cursor.tokensFrom (text.toList.length + 1) (.start text.toList)

end TreePattern
