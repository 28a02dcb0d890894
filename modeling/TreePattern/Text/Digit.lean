/-! Digits of numbers in a radix up to sixteen. -/

namespace TreePattern.Digit

/-- The value of a digit. Letters of either case continue the decimal digits. -/
def value? (radix : Nat) (c : Char) : Option Nat :=
  let value? :=
    if c.isDigit then some (c.toNat - 48)
    else if 'a' ≤ c ∧ c ≤ 'f' then some (c.toNat - 87)
    else if 'A' ≤ c ∧ c ≤ 'F' then some (c.toNat - 55)
    else none
  value?.filter (· < radix)

def isDigit (radix : Nat) (c : Char) : Bool := (value? radix c).isSome

/-- The number that digits denote, the most significant one first. -/
def number (radix : Nat) (digits : List Char) : Nat :=
  digits.foldl (fun n d => radix * n + (value? radix d).getD 0) 0

end TreePattern.Digit
