import TreePattern.Text.Message

/-! Reasons for which a text is no pattern. -/

namespace TreePattern

inductive PatternError where
  /-- A character begins no token. -/
  | strayCharacter (character : Char) (offset : Nat)
  /-- A token does not fit what precedes it. -/
  | misplacedToken (lexeme : List Char) (offset : Nat)
  /-- The text ends where something has to follow. -/
  | endOfText
  | integerOutOfRange (lexeme : List Char) (offset : Nat)
  | invalidRegexp (source : String)
  | nestedTooDeeply (limit : Nat)
  deriving DecidableEq, Repr

namespace PatternError

/-- Whether the text cannot be divided into tokens. -/
def isLexical : PatternError → Bool
  | strayCharacter _ _ => true
  | _ => false

/-- The position of the error in bytes of UTF-8, where there is one. -/
def offset? : PatternError → Option Nat
  | strayCharacter _ offset | misplacedToken _ offset | integerOutOfRange _ offset => some offset
  | _ => none

def message : PatternError → String
  | strayCharacter c _ => "Unexpected character: " ++ Message.quote (.singleton c) ++ "."
  | misplacedToken lexeme _ => "Unexpected token: " ++ Message.quote (.ofList lexeme) ++ "."
  | endOfText => "Unexpected end of pattern."
  | integerOutOfRange lexeme _ =>
    "Integer literal " ++ Message.quote (.ofList lexeme) ++ " is out of range."
  | invalidRegexp source => "Invalid regular expression " ++ Message.quote source
  | nestedTooDeeply limit =>
    "Pattern nesting exceeds the limit of " ++ .ofList (Nat.toDigits 10 limit) ++ " levels."

end PatternError

end TreePattern
