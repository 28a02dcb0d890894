import TreePattern.Text.Digit
import TreePattern.Token.Kind

/-! Lexemes: for each kind of token, the longest beginning of a text that belongs to it. -/

namespace TreePattern.Token

/-- The longer of two lexemes, the first if they are equally long. -/
def longer {α : Type} (size : α → Nat) : Option α → Option α → Option α
  | some x, some y => if size x < size y then some y else some x
  | some x, none => some x
  | none, y => y

def longest {α : Type} (size : α → Nat) (xs : List α) : Option α :=
  xs.foldl (fun best x => longer size best (some x)) none

/-! ## Names -/

def isNameStart (c : Char) : Bool := c.isAlpha || c == '_'

def isNameChar (c : Char) : Bool := c.isAlphanum || c == '_'

def variableName? : List Char → Option (List Char)
  | [] => none
  | c :: cs => if c.isLower || c == '_' then some (c :: cs.takeWhile isNameChar) else none

def className? : List Char → Option (List Char)
  | [] => none
  | c :: cs => if c.isUpper then some (c :: cs.takeWhile isNameChar) else none

/-- The question or exclamation mark that ends some names. -/
def nameMark : List Char → List Char
  | '?' :: _ => ['?']
  | '!' :: _ => ['!']
  | _ => []

/-- A name of letters and digits, possibly with a mark at its end. -/
def identifier? : List Char → Option (List Char)
  | [] => none
  | c :: cs =>
    if isNameStart c then
      some (c :: (cs.takeWhile isNameChar ++ nameMark (cs.dropWhile isNameChar)))
    else none

/-- The longest of the given names that the text begins with. -/
def operatorName? (names : List (List Char)) (cs : List Char) : Option (List Char) :=
  longest List.length (names.filter (·.isPrefixOf cs))

def symbol? : List Char → Option (List Char)
  | ':' :: cs =>
    (longer List.length (identifier? cs) (operatorName? operatorNames cs)).map (':' :: ·)
  | _ => none

/-! ## Integers -/

/-- Digits, with single underscores before some of them. -/
def moreDigits (radix : Nat) : List Char → List Char
  | [] => []
  | c :: cs =>
    if Digit.isDigit radix c then c :: moreDigits radix cs
    else match c, cs with
      | '_', d :: _ => if Digit.isDigit radix d then '_' :: moreDigits radix cs else []
      | _, _ => []

/-- Digits that begin with one. -/
def digits? (radix : Nat) : List Char → Option (List Char)
  | [] => none
  | c :: cs => if Digit.isDigit radix c then some (c :: moreDigits radix cs) else none

/-- The radix that the letter after a leading zero stands for. -/
def radix? : Char → Option Nat
  | 'b' | 'B' => some 2
  | 'o' | 'O' => some 8
  | 'd' | 'D' => some 10
  | 'x' | 'X' => some 16
  | _ => none

/-- The digits of an integer in its radix. -/
def unsigned? : List Char → Option (List Char)
  | '0' :: cs =>
    let plain := '0' :: moreDigits 8 cs
    match cs with
    | [] => some plain
    | c :: rest =>
      match (radix? c).bind (digits? · rest) with
      | some ds => some ('0' :: c :: ds)
      | none => some plain
  | cs => digits? 10 cs

def integer? : List Char → Option (List Char)
  | '+' :: cs => (unsigned? cs).map ('+' :: ·)
  | '-' :: cs => (unsigned? cs).map ('-' :: ·)
  | cs => unsigned? cs

/-! ## Quoted texts -/

/-- A text up to and with its closing quote. A backslash and the character after it belong
together. -/
def quoted? (quote : Char) : List Char → Option (List Char)
  | [] => none
  | c :: cs =>
    if c = quote then some [c]
    else if c = '\\' then
      match cs with
      | [] => none
      | d :: cs => (quoted? quote cs).map (c :: d :: ·)
    else (quoted? quote cs).map (c :: ·)

def string? : List Char → Option (List Char)
  | '\'' :: cs => (quoted? '\'' cs).map ('\'' :: ·)
  | '"' :: cs => (quoted? '"' cs).map ('"' :: ·)
  | _ => none

def isFlag (c : Char) : Bool := c == 'i' || c == 'm' || c == 'x'

/-- A regular expression between slashes, with its flags. -/
def regexp? : List Char → Option (List Char)
  | '/' :: cs =>
    (quoted? '/' cs).map fun body => '/' :: (body ++ (cs.drop body.length).takeWhile isFlag)
  | _ => none

end TreePattern.Token
