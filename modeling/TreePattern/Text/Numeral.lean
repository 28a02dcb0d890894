import TreePattern.Text.Digit

/-! Integer numerals: an optional sign, digits with underscores between them, and a radix that the
first characters of the digits tell. -/

namespace TreePattern.Numeral

/-- The radix of an unsigned numeral, and its digits. A leading zero alone means octal. -/
def radix : List Char → Nat × List Char
  | '0' :: 'b' :: cs | '0' :: 'B' :: cs => (2, cs)
  | '0' :: 'o' :: cs | '0' :: 'O' :: cs => (8, cs)
  | '0' :: 'd' :: cs | '0' :: 'D' :: cs => (10, cs)
  | '0' :: 'x' :: cs | '0' :: 'X' :: cs => (16, cs)
  | '0' :: c :: cs => (8, c :: cs)
  | cs => (10, cs)

def magnitude (cs : List Char) : Nat :=
  let (base, digits) := radix cs
  Digit.number base (digits.filter (· != '_'))

/-- The number that a numeral denotes. -/
def value : List Char → Int
  | '-' :: cs => -(magnitude cs : Int)
  | '+' :: cs => magnitude cs
  | cs => magnitude cs

/-- The number that a numeral denotes, if it is one of 64 bits. -/
def value? (cs : List Char) : Option Int64 :=
  if Int64.minValue.toInt ≤ value cs ∧ value cs ≤ Int64.maxValue.toInt then some (.ofInt (value cs))
  else none

def ofNat (n : Nat) : List Char := Nat.toDigits 10 n

/-- The decimal numeral of a number. -/
def ofInt64 (n : Int64) : List Char :=
  if n.toInt < 0 then '-' :: ofNat n.toInt.natAbs else ofNat n.toInt.natAbs

end TreePattern.Numeral
