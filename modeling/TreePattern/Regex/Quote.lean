/-! Regular expressions for literal texts. -/

namespace TreePattern.Regex

/-- The characters with a meaning of their own in some place of a regular expression. -/
def metacharacters : List Char :=
  ['\\', '.', '+', '*', '?', '(', ')', '|', '[', ']', '\x7b', '\x7d', '^', '$', '#', '&', '-', '~']

/-- The source of an expression that matches exactly `text`. -/
def quote (text : List Char) : List Char :=
  text.flatMap fun c => if c ∈ metacharacters then ['\\', c] else [c]

end TreePattern.Regex
