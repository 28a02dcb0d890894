import TreePattern.Regex.Basic
import TreePattern.Unicode.Property

/-! Matching by sets of positions. A set of positions in a text of length `n` is a number whose bit
`p`, for `p ≤ n`, tells whether `p` belongs to it. -/

namespace TreePattern

open Unicode

/-- Whether a character counts as part of a word. -/
def isWordChar (ascii : Bool) (c : Char) : Bool :=
  if ascii then c.isAlphanum || c == '_' else Property.word.contains c

def WordEdge.holds (before after : Bool) : WordEdge → Bool
  | boundary => before != after
  | inside => before == after
  | first => !before && after
  | last => before && !after
  | noneBefore => !before
  | noneAfter => !after

/-- Whether the condition holds between the characters `before` and `after`. -/
def Look.holds (before after : Option Char) : Look → Bool
  | textStart => before.isNone
  | textEnd => after.isNone
  | lineStart false => before.all (· == '\n')
  | lineStart true => before.all fun c => c == '\n' || (c == '\r' && after != some '\n')
  | lineEnd false => after.all (· == '\n')
  | lineEnd true => after.all fun c => c == '\r' || (c == '\n' && before != some '\r')
  | word edge ascii => edge.holds (before.any (isWordChar ascii)) (after.any (isWordChar ascii))

namespace Regex

/-- The positions at the true entries of a list. -/
def bits : List Bool → Nat
  | [] => 0
  | b :: bs => b.toNat + 2 * bits bs

/-- The characters on both sides of each position of a text. -/
def sides (text : List Char) : List (Option Char × Option Char) :=
  (none :: text.map some).zip (text.map some ++ [none])

/-- Applies `step` a number of times, or fewer if nothing changes any more. -/
def times (step : Nat → Nat) : Nat → Nat → Nat
  | 0, here => here
  | n + 1, here =>
    let next := step here
    if next = here then here else times step n next

/-- The positions within `n` steps of `here`. -/
def within (step : Nat → Nat) (n here : Nat) : Nat := times (fun p => p ||| step p) n here

/-- The union of those rows, counted from 0, whose numbers belong to a set. -/
def gather : List Nat → Nat → Nat
  | [], _ => 0
  | row :: rows, set => (if set % 2 = 1 then row else 0) ||| gather rows (set / 2)

/-- For each position up to `last` the positions that any number of steps lead to. No step leads
back, so that the row of a position is made of later rows. -/
def reachable (step : Nat → Nat) (last : Nat) : List Nat :=
  (List.range (last + 1)).foldr
    (fun p rows => (1 <<< p ||| gather rows (step (1 <<< p) >>> (p + 1))) :: rows) []

/-- An expression prepared for one text: the positions where its conditions and its character sets
hold have been found. -/
inductive Plan where
  | keep (positions : Nat)
  | step (positions : Nat)
  | cat (a b : Plan)
  | alt (a b : Plan)
  /-- At least `least` times, and up to `more` times more. -/
  | repeated (p : Plan) (least more : Nat)
  /-- Any number of times. -/
  | loop (p : Plan)
  /-- A loop whose outcome has been found for each position. -/
  | table (rows : List Nat)

namespace Plan

/-- The positions in a text of the given length at which a match can end that starts at a position
of `here`. -/
def ends (length : Nat) : Plan → Nat → Nat
  | keep positions, here => here &&& positions
  | step positions, here => (here &&& positions) <<< 1
  | cat a b, here => b.ends length (a.ends length here)
  | alt a b, here => a.ends length here ||| b.ends length here
  | repeated p least more, here => within (p.ends length) more (times (p.ends length) least here)
  | loop p, here => within (p.ends length) (length + 1) here
  | table rows, here => gather rows here

def hasLoop : Plan → Bool
  | keep _ | step _ => false
  | cat a b | alt a b => a.hasLoop || b.hasLoop
  | repeated p _ _ => p.hasLoop
  | loop _ | table _ => true

/-- Any number of repetitions. A loop that contains another one is tabulated, lest their rounds
multiply. -/
def star (length : Nat) (p : Plan) : Plan :=
  if p.hasLoop then table (reachable (p.ends length) length) else loop p

end Plan

/-- The plan of an expression for a text. What consumes no character holds as often as one likes if
it holds once. -/
def plan (text : List Char) : Regex → Plan
  | empty => .keep (1 <<< (text.length + 1) - 1)
  | look l => .keep (bits ((sides text).map fun s => l.holds s.1 s.2))
  | char s => .step (bits (text.map s.contains))
  | cat a b => .cat (plan text a) (plan text b)
  | alt a b => .alt (plan text a) (plan text b)
  | iterate e least most _ =>
    let p := plan text e
    if e.isZeroWidth then .repeated p (min least 1) 0
    else match most with
      | some most => .repeated p least (most - least)
      | none => .cat (.repeated p least 0) (p.star text.length)
  | group _ e => plan text e

/-- Whether some part of the text matches. -/
def isMatch (e : Regex) (text : List Char) : Bool :=
  (plan text e).ends text.length (1 <<< (text.length + 1) - 1) != 0

end Regex

end TreePattern
