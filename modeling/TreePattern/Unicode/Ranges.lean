import TreePattern.Text.Digit

/-! Sets of code points as lists of closed ranges, the form in which character data is written. -/

namespace TreePattern.Unicode

/-- Closed ranges of code points, each given by its first and last member. -/
abbrev Ranges := List (Nat × Nat)

namespace Ranges

def contains (rs : Ranges) (c : Char) : Bool :=
  rs.any fun r => r.1 ≤ c.toNat && c.toNat ≤ r.2

theorem contains_iff {rs : Ranges} {c : Char} :
    contains rs c = true ↔ ∃ r ∈ rs, r.1 ≤ c.toNat ∧ c.toNat ≤ r.2 := by
  simp [contains]

/-- Reads ranges written as `41-5A AA C0-D6`: two ends, or a single code point. -/
def ofHex (text : String) : Ranges :=
  ((text.toList.splitOnP Char.isWhitespace).filter (!·.isEmpty)).map fun item =>
    match item.splitOnP (· == '-') with
    | [first, last] => (Digit.number 16 first, Digit.number 16 last)
    | _ => (Digit.number 16 item, Digit.number 16 item)

end Ranges

end TreePattern.Unicode
