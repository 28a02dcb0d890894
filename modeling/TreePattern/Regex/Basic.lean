import TreePattern.Unicode.CharSet

/-! Regular expressions as they are written, with the meaning of modes, escapes and classes worked
out. -/

namespace TreePattern

open Unicode (CharSet)

/-- What a word assertion asks of the characters before and after a position. -/
inductive WordEdge where
  | boundary
  | inside
  | first
  | last
  | noneBefore
  | noneAfter
  deriving DecidableEq, Repr

/-- A condition on a position in a text. -/
inductive Look where
  | textStart
  | textEnd
  /-- With `crlf`, a carriage return, a line feed, and the two together end a line. -/
  | lineStart (crlf : Bool)
  | lineEnd (crlf : Bool)
  | word (edge : WordEdge) (ascii : Bool)
  deriving DecidableEq, Repr

inductive Regex where
  | empty
  | look (l : Look)
  | char (s : CharSet)
  | cat (a b : Regex)
  | alt (a b : Regex)
  /-- With `greedy`, more repetitions go before fewer. -/
  | iterate (e : Regex) (least : Nat) (most : Option Nat) (greedy : Bool)
  /-- Parentheses, with a number if they capture what they enclose. -/
  | group (index : Option Nat) (e : Regex)
  deriving DecidableEq, Repr

namespace Regex

/-- The expressions one after the other. -/
def sequence : List Regex → Regex
  | [] => empty
  | [e] => e
  | e :: es => cat e (sequence es)

/-- One of the expressions, of which there is at least one. -/
def choice : Regex → List Regex → Regex
  | e, [] => e
  | e, d :: ds => alt e (choice d ds)

/-- Whether the expression consumes no character. -/
def isZeroWidth : Regex → Bool
  | empty | look _ => true
  | char _ => false
  | cat a b | alt a b => a.isZeroWidth && b.isZeroWidth
  | iterate e _ most _ => most == some 0 || e.isZeroWidth
  | group _ e => e.isZeroWidth

end Regex

end TreePattern
