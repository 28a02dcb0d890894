import TreePattern.Text.Digit

/-! Quoted texts. Double quotes know escapes for control characters and for characters by number;
single quotes know only the backslash and the quote itself. -/

namespace TreePattern.Quoted

/-- Escapes of one letter, each with the character it stands for. -/
def namedEscapes : List (Char × Char) := [
  ('n', '\n'), ('t', '\t'), ('r', '\r'), ('f', '\x0c'), ('v', '\x0b'), ('a', '\x07'), ('e', '\x1b'),
  ('b', '\x08')]

def isControl (c : Char) : Bool := c.toNat < 0x20 || c.toNat == 0x7F

/-- How a character is written between double quotes. -/
def encodeChar (c : Char) : List Char :=
  if c = '"' ∨ c = '\\' then ['\\', c]
  else match namedEscapes.find? (·.2 == c) with
    | some (letter, _) => ['\\', letter]
    | none =>
      if isControl c then
        ['\\', 'x', Nat.digitChar (c.toNat / 16), Nat.digitChar (c.toNat % 16)]
      else [c]

/-- The text between double quotes. -/
def encode (cs : List Char) : List Char := '"' :: (cs.flatMap encodeChar ++ ['"'])

/-! ## Reading double quotes -/

/-- The longest run of at most `most` digits. -/
def digits (radix most : Nat) (cs : List Char) : List Char :=
  (cs.take most).takeWhile (Digit.isDigit radix)

/-- The character whose number is the lowest byte of `n`. -/
def byteChar (n : Nat) : Char := .ofNat (n % 256)

/-- The character with number `n`, or the replacement character if there is none. -/
def scalarChar (n : Nat) : Char := if n.isValidChar then .ofNat n else '\uFFFD'

/-- The control character of `c`. -/
def controlOf (c : Char) : Char :=
  if c = '?' then '\x7f' else if c.toNat < 0x80 then .ofNat (c.toNat % 32) else c

/-- Reads the character that a control escape applies to; at the end it is the null character. -/
def control : List Char → Char × List Char
  | [] => ('\x00', [])
  | c :: cs => (controlOf c, cs)

/-- Reads the character that a meta escape applies to. -/
def metaBase : List Char → Char × List Char
  | '\\' :: 'c' :: cs => control cs
  | '\\' :: c :: cs => (c, cs)
  | ['\\'] => ('\x00', [])
  | c :: cs => (c, cs)
  | [] => ('\x00', [])

/-- Reads a number of up to `most` digits; without any, the letter of the escape stands for
itself. -/
def numbered (letter : Char) (radix most : Nat) (make : Nat → Char) (cs : List Char) :
    Char × List Char :=
  let ds := digits radix most cs
  (if ds.isEmpty then letter else make (Digit.number radix ds), cs.drop ds.length)

def dropBrace : List Char → List Char
  | '\x7d' :: cs => cs
  | cs => cs

/-- Reads an escape after its backslash. -/
def unescape : List Char → List Char × List Char
  | [] => (['\\'], [])
  | '\n' :: cs => ([], cs)
  | 's' :: cs => ([' '], cs)
  | 'x' :: cs => let (c, rest) := numbered 'x' 16 2 byteChar cs; ([c], rest)
  | 'u' :: '\x7b' :: cs =>
    let (c, rest) := numbered 'u' 16 6 scalarChar cs; ([c], dropBrace rest)
  | 'u' :: cs => let (c, rest) := numbered 'u' 16 4 scalarChar cs; ([c], rest)
  | 'c' :: cs => let (c, rest) := control cs; ([c], rest)
  | 'C' :: '-' :: cs => let (c, rest) := control cs; ([c], rest)
  | 'M' :: '-' :: cs => let (c, rest) := metaBase cs; ([byteChar (c.toNat % 128 + 128)], rest)
  | c :: cs =>
    match namedEscapes.lookup c with
    | some d => ([d], cs)
    | none =>
      if Digit.isDigit 8 c then
        let (d, rest) := numbered c 8 3 byteChar (c :: cs); ([d], rest)
      else ([c], cs)

theorem length_control (cs : List Char) : (control cs).2.length ≤ cs.length := by
  cases cs <;> simp [control]

theorem length_metaBase (cs : List Char) : (metaBase cs).2.length ≤ cs.length := by
  unfold metaBase
  split <;> simp only [List.length_cons, List.length_nil] <;> try omega
  exact Nat.le_trans (length_control _) (by omega)

theorem length_numbered (letter : Char) (radix most : Nat) (make : Nat → Char) (cs : List Char) :
    (numbered letter radix most make cs).2.length ≤ cs.length := by
  simp [numbered]

theorem length_dropBrace (cs : List Char) : (dropBrace cs).length ≤ cs.length := by
  unfold dropBrace
  split <;> simp

/-- An escape gives back no more than what follows its backslash. -/
theorem length_unescape (cs : List Char) : (unescape cs).2.length ≤ cs.length := by
  unfold unescape
  split <;> simp only [List.length_cons, List.length_nil] <;> try omega
  · exact Nat.le_trans (length_numbered ..) (by omega)
  · exact Nat.le_trans (Nat.le_trans (length_dropBrace _) (length_numbered ..)) (by omega)
  · exact Nat.le_trans (length_numbered ..) (by omega)
  · exact Nat.le_trans (length_control _) (by omega)
  · exact Nat.le_trans (length_control _) (by omega)
  · exact Nat.le_trans (length_metaBase _) (by omega)
  · split
    · simp
    · split
      · simp [numbered]
      · simp

/-- The text that stands between double quotes. -/
def decode : List Char → List Char
  | [] => []
  | c :: cs =>
    if c = '\\' then (unescape cs).1 ++ decode (unescape cs).2 else c :: decode cs
termination_by cs => cs.length
decreasing_by
  · exact Nat.lt_succ_of_le (length_unescape cs)
  · simp

/-! ## Reading single quotes -/

/-- The text that stands between single quotes. -/
def decodeSingle : List Char → List Char
  | '\\' :: '\\' :: cs => '\\' :: decodeSingle cs
  | '\\' :: '\'' :: cs => '\'' :: decodeSingle cs
  | c :: cs => c :: decodeSingle cs
  | [] => []

/-- The text that a quoted text with its quotes stands for. -/
def value : List Char → List Char
  | '\'' :: cs => decodeSingle cs.dropLast
  | _ :: cs => decode cs.dropLast
  | [] => []

end TreePattern.Quoted
