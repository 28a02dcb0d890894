import TreePattern.Regex.Basic
import TreePattern.Unicode.Property

/-! The modes of a regular expression, what they make of its elements, and how they are written. -/

namespace TreePattern.Regex

open Unicode

structure Modes where
  ignoreCase : Bool := false
  multiLine : Bool := false
  dotAll : Bool := false
  unicode : Bool := true
  crlf : Bool := false
  extended : Bool := false
  /-- Repetitions are greedy with a question mark behind them, and not without it. -/
  swapGreed : Bool := false
  deriving DecidableEq, Repr

namespace Modes

def set? (m : Modes) (letter : Char) (on : Bool) : Option Modes :=
  match letter with
  | 'i' => some { m with ignoreCase := on }
  | 'm' => some { m with multiLine := on }
  | 's' => some { m with dotAll := on }
  | 'u' => some { m with unicode := on }
  | 'R' => some { m with crlf := on }
  | 'x' => some { m with extended := on }
  | 'U' => some { m with swapGreed := on }
  | _ => none

/-- A list of mode letters, those after a hyphen being turned off. Every letter and the hyphen
occur at most once, and some letter follows the hyphen. Returns the modes, whether the list is
empty, and the text from the closing character on. -/
def read? (m : Modes) (seen : List Char) : List Char → Option (Modes × Bool × List Char)
  | [] => none
  | c :: cs =>
    if c = ':' ∨ c = ')' then
      if seen.head? = some '-' then none else some (m, seen.isEmpty, c :: cs)
    else if c ∈ seen then none
    else if c = '-' then read? m (c :: seen) cs
    else do read? (← m.set? c (!seen.contains '-')) (c :: seen) cs

/-! ## Character sets -/

def fold (m : Modes) (s : CharSet) : CharSet :=
  if !m.ignoreCase then s else if m.unicode then .anyCase s else .anyAsciiCase s

/-- Outside Unicode mode a complement would hold bytes that are no text. -/
def negate? (m : Modes) (negated : Bool) (s : CharSet) : Option CharSet :=
  if !negated then some s else if m.unicode then some (~~~s) else none

def dot? (m : Modes) : Option CharSet :=
  if !m.unicode then none
  else if m.dotAll then some (~~~.empty)
  else if m.crlf then some (~~~.ranges [(0xA, 0xA), (0xD, 0xD)])
  else some (~~~.singleton '\n')

/-- The set written by `\d`, `\s`, `\w` or, in upper case, its complement. -/
def shorthand? (m : Modes) (letter : Char) : Option CharSet :=
  let set : CharSet :=
    match letter.toLower, m.unicode with
    | 'd', true => Property.decimalNumber
    | 's', true => .ranges PropertyData.whiteSpace
    | _, true => Property.word
    | 'd', false => .ranges [(0x30, 0x39)]
    | 's', false => .ranges [(0x9, 0xD), (0x20, 0x20)]
    | _, false => .ranges [(0x30, 0x39), (0x41, 0x5A), (0x5F, 0x5F), (0x61, 0x7A)]
  m.negate? letter.isUpper set

/-! ## Single characters and positions -/

/-- The expression for a literal character; `byte` tells that it was written as two hexadecimal
digits, which name a byte outside Unicode mode. -/
def literal? (m : Modes) (c : Char) (byte : Bool) : Option Regex :=
  if m.unicode then some (char (m.fold (.singleton c)))
  else if c.toNat < 0x80 then some (char (m.fold (.singleton c)))
  else if byte then none
  else some (char (.singleton c))

/-- A literal character of a class. -/
def member? (m : Modes) (c : Char) : Option Char :=
  if m.unicode || c.toNat < 0x80 then some c else none

def caret (m : Modes) : Look := if m.multiLine then .lineStart m.crlf else .textStart

def dollar (m : Modes) : Look := if m.multiLine then .lineEnd m.crlf else .textEnd

def edge (m : Modes) (e : WordEdge) : Look := .word e (!m.unicode)

end Modes

end TreePattern.Regex
