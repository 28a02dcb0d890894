import TreePattern.Unicode.Property

/-! Blanks in regular expressions. In extended mode white space and comments separate the
characters of an expression, also of its escapes, classes and counts. -/

namespace TreePattern.Regex

open Unicode.Property (isWhiteSpace)

/-- Drops white space and comments; a comment runs from a number sign to the end of the line. -/
def dropBlank (inComment : Bool) : List Char → List Char
  | [] => []
  | c :: cs =>
    if inComment then dropBlank (c != '\n') cs
    else if isWhiteSpace c then dropBlank false cs
    else if c = '#' then dropBlank true cs
    else c :: cs

def skip (extended : Bool) (cs : List Char) : List Char :=
  if extended then dropBlank false cs else cs

/-- Takes at most `n` characters that satisfy `p`, skipping what may stand after each of them. -/
def takeUpTo (extended : Bool) (p : Char → Bool) : Nat → List Char → List Char × List Char
  | 0, cs => ([], cs)
  | _ + 1, [] => ([], [])
  | n + 1, c :: cs =>
    if p c then
      let (taken, rest) := takeUpTo extended p n (skip extended cs)
      (c :: taken, rest)
    else ([], c :: cs)

def takeAll (extended : Bool) (p : Char → Bool) (cs : List Char) : List Char × List Char :=
  takeUpTo extended p cs.length cs

/-- The character that decides what a hyphen before `cs` means. In extended mode it is looked for
behind white space and one number sign. -/
def lookAhead (extended : Bool) (cs : List Char) : Option Char :=
  if extended then
    match cs.dropWhile isWhiteSpace with
    | '#' :: rest => (rest.dropWhile isWhiteSpace).head?
    | rest => rest.head?
  else cs.head?

end TreePattern.Regex
