import TreePattern.Unicode.Category
import TreePattern.Unicode.CharSet
import TreePattern.Unicode.Digit
import TreePattern.Unicode.PropertyData

/-! Character properties as sets. Most are unions of general categories and a few further
characters, and are defined that way. -/

namespace TreePattern.Unicode.Property

open CharSet Category PropertyData

/-! ## General categories -/

def decimalNumber : CharSet := ranges (decimalZeros.map fun z => (z, z + 9))

def casedLetter : CharSet :=
  unions [ranges uppercaseLetter, ranges lowercaseLetter, ranges titlecaseLetter]

def letter : CharSet := unions [casedLetter, ranges modifierLetter, ranges otherLetter]

def mark : CharSet := unions [ranges nonspacingMark, ranges spacingMark, ranges enclosingMark]

def number : CharSet := unions [decimalNumber, ranges letterNumber, ranges otherNumber]

def punctuation : CharSet :=
  unions [ranges connectorPunctuation, ranges dashPunctuation, ranges openPunctuation,
    ranges closePunctuation, ranges initialPunctuation, ranges finalPunctuation,
    ranges otherPunctuation]

def symbol : CharSet :=
  unions [ranges mathSymbol, ranges currencySymbol, ranges modifierSymbol, ranges otherSymbol]

def separator : CharSet :=
  unions [ranges spaceSeparator, ranges lineSeparator, ranges paragraphSeparator]

/-- Everything that leaves a mark on paper. -/
def graphic : CharSet := unions [letter, mark, number, punctuation, symbol]

def assigned : CharSet :=
  unions [graphic, separator, ranges control, ranges format, ranges privateUse]

def other : CharSet := ~~~(graphic ∪ separator)

/-! ## Letters and case -/

def lowercase : CharSet := ranges lowercaseLetter ∪ ranges otherLowercase

def uppercase : CharSet := ranges uppercaseLetter ∪ ranges otherUppercase

def cased : CharSet := unions [lowercase, uppercase, ranges titlecaseLetter]

/-- The characters that do not end a word when its letters are cased. -/
def caseIgnorable : CharSet :=
  unions [ranges nonspacingMark, ranges enclosingMark, ranges format, ranges modifierLetter,
    ranges modifierSymbol, ranges otherCaseIgnorable]

def alphabetic : CharSet := unions [letter, ranges letterNumber, ranges otherAlphabetic]

/-- The characters of a word in a regular expression. -/
def word : CharSet :=
  unions [alphabetic, mark, decimalNumber, ranges connectorPunctuation, ranges joinControl]

/-- The letters that the case runs cover, each with its lower-case form. -/
def casePairs : List (Nat × Nat) :=
  caseRuns.flatMap fun r =>
    (List.range' 0 ((r.last - r.first) / r.stride + 1) r.stride).map fun d =>
      (r.first + d, r.lower + d)

def capitals : Ranges := casePairs.map fun p => (p.1, p.1)

def smallForms : Ranges := casePairs.map fun p => (p.2, p.2)

def variantForms : Ranges := letterVariants.map fun v => (v.1, v.1)

def changesLowercased : CharSet := ranges ((0x130, 0x130) :: capitals)

def changesUppercased : CharSet :=
  unions [ranges smallForms, ranges variantForms,
    ranges otherChangesUppercased]

def changesTitlecased : CharSet :=
  (changesUppercased \ ranges notChangesTitlecased) ∪ ranges otherChangesTitlecased

def changesCasefolded : CharSet :=
  (unions [ranges capitals, ranges variantForms,
    ranges otherChangesCasefolded]) \ ranges notChangesCasefolded

def changesCasemapped : CharSet :=
  unions [changesLowercased, changesUppercased, changesTitlecased]

/-! ## Identifiers -/

def identifierStart : CharSet :=
  unions [letter, ranges letterNumber, ranges otherIdentifierStart]
    \ (ranges patternSyntax ∪ ranges patternWhiteSpace)

def identifierContinue : CharSet :=
  unions [identifierStart, ranges nonspacingMark, ranges spacingMark, decimalNumber,
    ranges connectorPunctuation, ranges otherIdentifierContinue]

/-! ## Printing -/

def math : CharSet := ranges mathSymbol ∪ ranges otherMath

/-- Characters that join the one before them on the page. -/
def graphemeExtend : CharSet :=
  unions [ranges nonspacingMark, ranges enclosingMark, ranges otherGraphemeExtend]

def graphemeBase : CharSet := (graphic ∪ ranges spaceSeparator) \ graphemeExtend

def isWhiteSpace (c : Char) : Bool := whiteSpace.contains c

end TreePattern.Unicode.Property
