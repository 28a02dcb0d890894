import TreePattern.Text.Digit

/-! JSON texts, read as far as the reading of options needs. -/

namespace TreePattern

/-- A JSON value. A number is known if it is written with digits alone, a text if its escapes name
characters. -/
inductive Json where
  | null
  | bool (b : Bool)
  | number (n : Option Nat)
  | string (s : Option (List Char))
  | array (items : List Json)
  | object (fields : List (Option (List Char) × Json))

namespace Json

def skipBlank (cs : List Char) : List Char :=
  cs.dropWhile fun c => c == ' ' || c == '\n' || c == '\t' || c == '\r'

/-- What follows a given beginning. -/
def after? (start cs : List Char) : Option (List Char) :=
  if start.isPrefixOf cs then some (cs.drop start.length) else none

/-! ## Numbers -/

/-- Divides a text after the decimal digits at its start. -/
def spanDigits (cs : List Char) : List Char × List Char := cs.span (Digit.isDigit 10)

/-- Drops the digits at the start of a text, of which there has to be one. -/
def dropDigits? (cs : List Char) : Option (List Char) :=
  match spanDigits cs with
  | ([], _) => none
  | (_, rest) => some rest

def dropSign : List Char → List Char
  | '+' :: cs | '-' :: cs => cs
  | cs => cs

/-- Drops a fraction, if one comes next. -/
def dropFraction? : List Char → Option (List Char)
  | '.' :: cs => dropDigits? cs
  | cs => some cs

/-- Drops an exponent, if one comes next. -/
def dropExponent? : List Char → Option (List Char)
  | 'e' :: cs | 'E' :: cs => dropDigits? (dropSign cs)
  | cs => some cs

/-- Reads a number after its sign: an integer without superfluous zeros, a fraction, an exponent. -/
def unsigned? (cs : List Char) : Option (Option Nat × List Char) :=
  match spanDigits cs with
  | ([], _) | ('0' :: _ :: _, _) => none
  | (digits, rest) => do
    let tail ← dropExponent? (← dropFraction? rest)
    return (if tail.length = rest.length then some (Digit.number 10 digits) else none, tail)

/-! ## Strings -/

def escape? : Char → Option Char
  | '"' => some '"'
  | '\\' => some '\\'
  | '/' => some '/'
  | 'b' => some '\x08'
  | 'f' => some '\x0c'
  | 'n' => some '\n'
  | 'r' => some '\r'
  | 't' => some '\t'
  | _ => none

/-- Reads a string after its opening quote as a list of UTF-16 units and characters. -/
def units? : List Char → Option (List (Nat ⊕ Char) × List Char)
  | [] => none
  | '"' :: cs => some ([], cs)
  | '\\' :: 'u' :: a :: b :: c :: d :: cs => do
    let (us, rest) ← units? cs
    let digits := [a, b, c, d]
    if digits.all (Digit.isDigit 16) then some (.inl (Digit.number 16 digits) :: us, rest) else none
  | '\\' :: e :: cs => do
    let c ← escape? e
    let (us, rest) ← units? cs
    return (.inr c :: us, rest)
  | c :: cs =>
    if c.toNat < 0x20 || c == '\\' then none
    else (units? cs).map fun r => (.inr c :: r.1, r.2)

def isHighSurrogate (n : Nat) : Bool := 0xD800 ≤ n && n < 0xDC00

def isLowSurrogate (n : Nat) : Bool := 0xDC00 ≤ n && n < 0xE000

/-- The text of a string, unless it holds half of a surrogate pair. -/
def text? : List (Nat ⊕ Char) → Option (List Char)
  | [] => some []
  | .inr c :: us => (text? us).map (c :: ·)
  | [.inl n] => if isHighSurrogate n || isLowSurrogate n then none else some [.ofNat n]
  | .inl n :: .inr c :: us =>
    if isHighSurrogate n || isLowSurrogate n then none
    else (text? us).map fun cs => .ofNat n :: c :: cs
  | .inl n :: .inl m :: us =>
    if isHighSurrogate n then
      if isLowSurrogate m then
        (text? us).map (.ofNat (0x10000 + (n - 0xD800) * 0x400 + (m - 0xDC00)) :: ·)
      else none
    else if isLowSurrogate n then none
    else (text? (.inl m :: us)).map (.ofNat n :: ·)

/-! ## Values -/

/-- Reads a value that is written as a word. -/
def word? (cs : List Char) : Option (Json × List Char) :=
  ((after? "null".toList cs).map (null, ·)) <|>
    ((after? "true".toList cs).map (bool true, ·)) <|>
    ((after? "false".toList cs).map (bool false, ·))

mutual

/-- Reads a value. The first argument bounds the number of steps. -/
def value? : Nat → List Char → Option (Json × List Char)
  | 0, _ => none
  | fuel + 1, cs =>
    match skipBlank cs with
    | '\x7b' :: cs =>
      match skipBlank cs with
      | '\x7d' :: cs => some (object [], cs)
      | cs => (fields? fuel cs).map fun r => (object r.1, r.2)
    | '[' :: cs =>
      match skipBlank cs with
      | ']' :: cs => some (array [], cs)
      | cs => (items? fuel cs).map fun r => (array r.1, r.2)
    | '"' :: cs => (units? cs).map fun r => (string (text? r.1), r.2)
    | '-' :: cs => (unsigned? cs).map fun r => (number none, r.2)
    | cs =>
      word? cs <|> (unsigned? cs).map fun r => (number r.1, r.2)

/-- Reads the items of an array up to its closing bracket. -/
def items? : Nat → List Char → Option (List Json × List Char)
  | 0, _ => none
  | fuel + 1, cs => do
    let (v, cs) ← value? fuel cs
    match skipBlank cs with
    | ']' :: cs => some ([v], cs)
    | ',' :: cs => (items? fuel cs).map fun r => (v :: r.1, r.2)
    | _ => none

/-- Reads the fields of an object up to its closing brace. -/
def fields? : Nat → List Char → Option (List (Option (List Char) × Json) × List Char)
  | 0, _ => none
  | fuel + 1, cs =>
    match skipBlank cs with
    | '"' :: cs => do
      let (name, cs) ← units? cs
      match skipBlank cs with
      | ':' :: cs => do
        let (v, cs) ← value? fuel cs
        match skipBlank cs with
        | '\x7d' :: cs => some ([(text? name, v)], cs)
        | ',' :: cs => (fields? fuel cs).map fun r => ((text? name, v) :: r.1, r.2)
        | _ => none
      | _ => none
    | _ => none

end

/-- The value that a text denotes. -/
def read? (text : String) : Option Json :=
  match value? (2 * text.toList.length + 2) text.toList with
  | some (v, rest) => if (skipBlank rest).isEmpty then some v else none
  | none => none

end Json

end TreePattern
