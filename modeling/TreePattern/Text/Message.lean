import TreePattern.Unicode.Revision

/-! Texts quoted inside messages. What would not show on the page as a character of its own is
written by its number. -/

namespace TreePattern.Message

open Unicode

/-- Marks that join the character before them. The halfwidth voicing marks, which are letters, stand
by themselves. -/
def joining : CharSet := Revision.graphemeExtend \ .ranges Category.modifierLetter

/-- The characters that show on the page by themselves. -/
def visible : CharSet :=
  (.singleton ' ' ∪ Revision.graphic) \ (joining ∪ .ranges PropertyData.defaultIgnorable)

def quoteChar (c : Char) : List Char :=
  if c = '"' ∨ c = '\\' then ['\\', c]
  else if c = '\x00' then ['\\', '0']
  else if c = '\t' then ['\\', 't']
  else if c = '\n' then ['\\', 'n']
  else if c = '\r' then ['\\', 'r']
  else if c ∈ visible then [c]
  else ['\\', 'u', '\x7b'] ++ Nat.toDigits 16 c.toNat ++ ['\x7d']

def quote (text : String) : String :=
  .ofList ('"' :: (text.toList.flatMap quoteChar ++ ['"']))

end TreePattern.Message
