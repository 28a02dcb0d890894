import TreePattern.Regex.Blank
import TreePattern.Regex.Modes
import TreePattern.Regex.Quote
import TreePattern.Text.Digit
import TreePattern.Unicode.PropertyName

/-! Escapes in regular expressions: what follows a backslash. -/

namespace TreePattern.Regex

open Unicode

/-- What an escape stands for. -/
inductive Atom where
  | literal (c : Char) (byte : Bool)
  | look (l : Look)
  | set (s : CharSet)

/-! ## Characters by number -/

/-- The character with a number, if it is the number of one. -/
def scalar? (n : Nat) : Option Char :=
  if n.isValidChar then some (.ofNat n) else none

def hexChar? (digits : List Char) : Option Char :=
  if digits.isEmpty then none
  else scalar? (Digit.number 16 digits)

/-- Reads what follows `\x`, `\u` or `\U`: a fixed number of digits, or any number in braces. -/
def hexEscape? (x : Bool) (count : Nat) (cs : List Char) : Option (Char × Bool × List Char) :=
  match skip x cs with
  | '\x7b' :: cs =>
    match takeAll x (Digit.isDigit 16) (skip x cs) with
    | (digits, '\x7d' :: rest) => (hexChar? digits).map (·, false, skip x rest)
    | _ => none
  | cs =>
    let (digits, rest) := takeUpTo x (Digit.isDigit 16) count cs
    if digits.length = count then (hexChar? digits).map (·, count = 2, rest) else none

/-! ## Properties -/

/-- Splits `name!=value`, `name:value` or `name=value`; the flag tells whether the first form is
used. -/
def splitProperty (name : List Char) : List Char × Option (Bool × List Char) :=
  let cut (stop : List Char → Bool) : Option (List Char × List Char) :=
    (List.range name.length).find? (fun i => stop (name.drop i)) |>.map fun i =>
      (name.take i, name.drop i)
  match cut (['!', '='].isPrefixOf ·) with
  | some (key, rest) => (key, some (true, rest.drop 2))
  | none =>
    match cut ([':'].isPrefixOf ·) with
    | some (key, rest) => (key, some (false, rest.drop 1))
    | none =>
      match cut (['='].isPrefixOf ·) with
      | some (key, rest) => (key, some (false, rest.drop 1))
      | none => (name, none)

def propertySet? (m : Modes) (negated : Bool) (name : List Char) : Option CharSet :=
  if !m.unicode then none
  else match splitProperty name with
    | (name, none) => do m.negate? negated (m.fold (← Property.named? name))
    | (name, some (unequal, value)) => do
      m.negate? (negated != unequal) (m.fold (← Property.valued? name value))

/-- Reads what follows `\p` or `\P`: one letter, or a name in braces. -/
def propertyEscape? (m : Modes) (negated : Bool) (cs : List Char) :
    Option (CharSet × List Char) :=
  match skip m.extended cs with
  | [] | '\\' :: _ => none
  | '\x7b' :: cs =>
    match takeAll m.extended (· != '\x7d') (skip m.extended cs) with
    | (name, _ :: rest) => (propertySet? m negated name).map (·, rest)
    | (_, []) => none
  | c :: cs => (propertySet? m negated [c]).map (·, skip m.extended cs)

/-! ## Word assertions -/

def namedEdge? : String → Option WordEdge
  | "start" => some .first
  | "end" => some .last
  | "start-half" => some .noneBefore
  | "end-half" => some .noneAfter
  | _ => none

/-- Reads what follows `\b`. A brace belongs to the assertion if a letter or a hyphen comes next,
and to a repetition count otherwise. -/
def wordEscape? (m : Modes) (cs : List Char) : Option (Look × List Char) :=
  match cs with
  | '\x7b' :: inner =>
    let isNameChar (c : Char) : Bool := c.isAlpha || c == '-'
    match skip m.extended inner with
    | [] => none
    | c :: inner =>
      if !isNameChar c then some (m.edge .boundary, cs)
      else match takeAll m.extended isNameChar (c :: inner) with
        | (name, '\x7d' :: rest) => (namedEdge? (.ofList name)).map (m.edge ·, rest)
        | _ => none
  | _ => some (m.edge .boundary, cs)

/-! ## All escapes -/

def controlEscape? : Char → Option Char
  | 'a' => some '\x07'
  | 'f' => some '\x0c'
  | 't' => some '\t'
  | 'n' => some '\n'
  | 'r' => some '\r'
  | 'v' => some '\x0b'
  | _ => none

def lookEscape? (m : Modes) : Char → Option Look
  | 'A' => some .textStart
  | 'z' => some .textEnd
  | 'B' => some (m.edge .inside)
  | '<' => some (m.edge .first)
  | '>' => some (m.edge .last)
  | _ => none

/-- Punctuation may be escaped whether or not it has a meaning. -/
def isPunctuation (c : Char) : Bool :=
  c.toNat < 0x80 && !c.isAlphanum && c != '<' && c != '>'

/-- Reads what follows a backslash. -/
def escape? (m : Modes) : List Char → Option (Atom × List Char)
  | [] => none
  | c :: cs =>
    if isPunctuation c then some (.literal c false, cs)
    else match c with
      | 'x' => (hexEscape? m.extended 2 cs).map fun r => (.literal r.1 r.2.1, r.2.2)
      | 'u' => (hexEscape? m.extended 4 cs).map fun r => (.literal r.1 r.2.1, r.2.2)
      | 'U' => (hexEscape? m.extended 8 cs).map fun r => (.literal r.1 r.2.1, r.2.2)
      | 'p' => (propertyEscape? m false cs).map fun r => (.set r.1, r.2)
      | 'P' => (propertyEscape? m true cs).map fun r => (.set r.1, r.2)
      | 'd' | 's' | 'w' | 'D' | 'S' | 'W' => (m.shorthand? c).map (.set ·, cs)
      | 'b' => (wordEscape? m cs).map fun r => (.look r.1, r.2)
      | _ => (controlEscape? c).map (.literal · false, cs) <|> (lookEscape? m c).map (.look ·, cs)

end TreePattern.Regex
