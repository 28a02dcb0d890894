import TreePattern.Unicode.Revision

/-! Lower-casing of texts. A capital sigma becomes a final one at the end of a word; every other
letter changes by itself. -/

namespace TreePattern.Unicode

/-- Whether a cased letter comes first, once the characters that do not count are left out. -/
def startsCased (cs : List Char) : Bool :=
  match cs.dropWhile Revision.caseIgnorable.contains with
  | c :: _ => Revision.cased.contains c
  | [] => false

/-- The lower-case form of `c` between the characters `before`, nearest first, and `after`. -/
def lowercaseChar (before : List Char) (c : Char) (after : List Char) : List Char :=
  if c = '\u03A3' then [if startsCased before && !startsCased after then '\u03C2' else '\u03C3']
  else if c = '\u0130' then ['i', '\u0307']
  else [Revision.toLower c]

/-- Lower-cases a text that follows the characters `before`. -/
def lowercaseAfter (before : List Char) : List Char → List Char
  | [] => []
  | c :: rest => lowercaseChar before c rest ++ lowercaseAfter (c :: before) rest

def lowercase (cs : List Char) : List Char := lowercaseAfter [] cs

end TreePattern.Unicode
