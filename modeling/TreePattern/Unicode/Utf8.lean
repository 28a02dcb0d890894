import TreePattern.Unicode.Ranges

/-! The UTF-8 forms of ranges of characters. A form is a sequence of byte ranges and stands for the
sequences of bytes that have one byte of each. -/

namespace TreePattern.Unicode.Utf8

abbrev ByteRange := Nat × Nat

/-- A form that begins with a byte from `lead` and the further bytes of the given forms. -/
def behind (lead : Nat) (forms : List (List ByteRange)) : List (List ByteRange) :=
  forms.map ((lead, lead) :: ·)

/-- The forms of the numbers from `first` to `last` as a byte counted from `lead` and a number of
continuation bytes, each with six bits. -/
def numbers : (continuation : Nat) → (lead first last : Nat) → List (List ByteRange)
  | 0, lead, first, last => [[(lead + first, lead + last)]]
  | n + 1, lead, first, last =>
    let block := 1 <<< (6 * (n + 1))
    let (a, b) := (first / block, last / block)
    let (head, tail) := (first % block, last % block)
    if a = b then behind (lead + a) (numbers n 0x80 head tail)
    else
      let lo := if head = 0 then a else a + 1
      let hi := if tail = block - 1 then b + 1 else b
      (if head = 0 then [] else behind (lead + a) (numbers n 0x80 head (block - 1))) ++
        (if lo < hi then [(lead + lo, lead + hi - 1) :: .replicate (n + 1) (0x80, 0xBF)] else []) ++
        (if tail = block - 1 then [] else behind (lead + b) (numbers n 0x80 0 tail))

/-- How many continuation bytes the characters of a range have, and from where their first byte
counts. -/
def lengths : List (Nat × Nat × Nat × Nat) :=
  [(0, 0, 0, 0x7F), (1, 0xC0, 0x80, 0x7FF), (2, 0xE0, 0x800, 0xFFFF), (3, 0xF0, 0x10000, 0x10FFFF)]

/-- The forms of ascending ranges, in ascending order. -/
def forms (rs : Ranges) : List (List ByteRange) :=
  rs.flatMap fun r => lengths.flatMap fun (n, lead, first, last) =>
    let (first, last) := (max r.1 first, min r.2 last)
    if first ≤ last then numbers n lead first last else []

def encode (cs : List Char) : List UInt8 := cs.flatMap String.utf8EncodeChar

end TreePattern.Unicode.Utf8
