import TreePattern.Unicode.Property

/-! The classes of characters that the rules for grapheme clusters, words and sentences tell apart.
A character outside the classes of a property has no special part in its rules. -/

namespace TreePattern.Unicode.Break

open CharSet Category PropertyData Property

def carriageReturn : CharSet := singleton '\r'

def lineFeed : CharSet := singleton '\n'

def joiner : CharSet := singleton '\u200D'

/-! ## Grapheme clusters -/

def otherPrepend : Ranges := .ofHex
  "D4E 111C2-111C3 113D1 1193F 11941 11A3A 11A84-11A89 11D46 11F02"

def notSpacingMark : Ranges := .ofHex
  "102B-102C 1038 1062-1064 1067-106D 1083 1087-108C 108F 109A-109C 1A61 1A63-1A64 AA7B AA7D
  11720-11721"

def leadingJamo : Ranges := .ofHex
  "1100-115F A960-A97C"

def vowelJamo : Ranges := .ofHex
  "1160-11A7 D7B0-D7C6 16D63 16D67-16D6A"

def trailingJamo : Ranges := .ofHex
  "11A8-11FF D7CB-D7FB"

/-- The first syllable of each run of Hangul syllables that begin alike, which has no final
consonant; 27 syllables with one follow it. -/
def openSyllables : List Nat := (List.range 399).map fun k => 0xAC00 + 28 * k

def graphemeControl : CharSet :=
  unions [ranges lineSeparator, ranges paragraphSeparator, ranges control, ranges format,
      ranges otherDefaultIgnorable \ assigned]
    \ unions [carriageReturn, lineFeed, ranges joinControl, ranges prependedConcatenationMark,
      ranges [(0xE0020, 0xE007F)]]

def graphemeBreakExtend : CharSet := graphemeExtend ∪ ranges emojiModifier

def grapheme : List (List String × CharSet) := [
  (["cn", "control"], graphemeControl),
  (["cr"], carriageReturn),
  (["ex", "extend"], graphemeBreakExtend),
  (["l"], ranges leadingJamo),
  (["lf"], lineFeed),
  (["lv"], ranges (openSyllables.map fun n => (n, n))),
  (["lvt"], ranges (openSyllables.map fun n => (n + 1, n + 27))),
  (["pp", "prepend"], ranges prependedConcatenationMark ∪ ranges otherPrepend),
  (["ri", "regionalindicator"], ranges regionalIndicator),
  (["sm", "spacingmark"],
    (ranges spacingMark ∪ ranges [(0xE33, 0xE33), (0xEB3, 0xEB3)])
      \ (graphemeBreakExtend ∪ ranges notSpacingMark)),
  (["t"], ranges trailingJamo),
  (["v"], ranges vowelJamo),
  (["zwj"], joiner)]

/-! ## Words -/

def katakana : Ranges := .ofHex
  "3031-3035 309B-309C 30A0-30FA 30FC-30FF 31F0-31FF 32D0-32FE 3300-3357 FF66-FF9D 1AFF0-1AFF3
  1AFF5-1AFFB 1AFFD-1AFFE 1B000 1B120-1B122 1B155 1B164-1B167"

def hebrewLetter : Ranges := .ofHex
  "5D0-5EA 5EF-5F2 FB1D FB1F-FB28 FB2A-FB36 FB38-FB3C FB3E FB40-FB41 FB43-FB44 FB46-FB4F"

/-- Letters of scripts that do not set words apart. -/
def notWordLetter : Ranges := .ofHex
  "E01-E30 E32-E33 E40-E46 E81-E82 E84 E86-E8A E8C-EA3 EA5 EA7-EB0 EB2-EB3 EBD EC0-EC4 EC6
  EDC-EDF 1000-102A 103F 1050-1055 105A-105D 1061 1065-1066 106E-1070 1075-1081 108E 1780-17B3
  17D7 17DC 1950-196D 1970-1974 1980-19AB 19B0-19C9 1A20-1A54 1AA7 3041-3096 309D-309F
  A9E0-A9E4 A9E6-A9EF A9FA-A9FE AA60-AA76 AA7A AA7E-AAAF AAB1 AAB5-AAB6 AAB9-AABD AAC0 AAC2
  AADB-AADD 11700-1171A 11740-11746 1B001-1B11F 1B132 1B150-1B152"

def otherWordLetter : Ranges := .ofHex
  "2C2-2C5 2D2-2D7 2DE-2DF 2E5-2EB 2ED 2EF-2FF 55A-55C 55E 58A 5F3 70F A708-A716 A720-A721
  A789-A78A AB5B"

def notWordFormat : Ranges := .ofHex
  "600-605 6DD 70F 890-891 8E2 200B-200D 110BD 110CD E0020-E007F"

def otherNumeric : Ranges := .ofHex
  "600-605 66B 6DD 890-891 8E2 19DA 110BD 110CD"

def midLetter : Ranges := .ofHex
  "3A B7 387 55F 5F4 2027 FE13 FE55 FF1A"

def midNumber : Ranges := .ofHex
  "2C 3B 37E 589 60C-60D 66C 7F8 2044 FE50 FE54 FF0C FF1B"

def midNumberOrLetter : Ranges := .ofHex
  "2E 2018-2019 2024 FE52 FF07 FF0E"

def newline : Ranges := .ofHex
  "B-C 85 2028-2029"

def breakExtend : CharSet := unions [graphemeExtend, ranges spacingMark, ranges emojiModifier]

def word : List (List String × CharSet) := [
  (["le", "aletter"],
    (alphabetic \ unions [ranges ideographic, ranges katakana, ranges hebrewLetter, breakExtend,
      ranges notWordLetter]) ∪ ranges otherWordLetter),
  (["cr"], carriageReturn),
  (["dq", "doublequote"], singleton '"'),
  (["extend"], breakExtend \ joiner),
  (["ex", "extendnumlet"], ranges connectorPunctuation ∪ singleton '\u202F'),
  (["fo", "format"], ranges format \ ranges notWordFormat),
  (["hl", "hebrewletter"], ranges hebrewLetter),
  (["ka", "katakana"], ranges katakana),
  (["lf"], lineFeed),
  (["ml", "midletter"], ranges midLetter),
  (["mn", "midnum"], ranges midNumber),
  (["mb", "midnumlet"], ranges midNumberOrLetter),
  (["nl", "newline"], ranges newline),
  (["nu", "numeric"], decimalNumber ∪ ranges otherNumeric),
  (["ri", "regionalindicator"], ranges regionalIndicator),
  (["sq", "singlequote"], singleton '\''),
  (["wsegspace"],
    ranges spaceSeparator \ ranges [(0xA0, 0xA0), (0x2007, 0x2007), (0x202F, 0x202F)]),
  (["zwj"], joiner)]

/-! ## Sentences -/

def sentenceContinue : Ranges := .ofHex
  "2C-2D 3A-3B 37E 55D 60C-60D 7F8 1802 1808 2013-2014 3001 FE10-FE11 FE13-FE14 FE31-FE32
  FE50-FE51 FE54-FE55 FE58 FE63 FF0C-FF0D FF1A-FF1B FF64"

def fullStop : Ranges := .ofHex
  "2E 2024 FE52 FF0E"

def otherClose : Ranges := .ofHex
  "22 27 275B-2760 2E00-2E01 2E06-2E08 2E0B 1F676-1F678"

def sentenceExtend : CharSet := unions [graphemeExtend, ranges spacingMark, joiner]

/-- Small letters. Georgian letters have capitals, which sentences do not begin with. -/
def sentenceLower : CharSet :=
  lowercase \ (graphemeExtend ∪ ranges [(0x10D0, 0x10FA), (0x10FD, 0x10FF)])

def sentenceUpper : CharSet :=
  (uppercase ∪ ranges titlecaseLetter) \ ranges [(0x1C90, 0x1CBA), (0x1CBD, 0x1CBF)]

def sentence : List (List String × CharSet) := [
  (["at", "aterm"], ranges fullStop),
  (["cl", "close"],
    unions [ranges openPunctuation, ranges closePunctuation, ranges initialPunctuation,
      ranges finalPunctuation, ranges otherClose]),
  (["cr"], carriageReturn),
  (["ex", "extend"], sentenceExtend),
  (["fo", "format"], ranges format \ (sentenceExtend ∪ ranges otherNumeric)),
  (["le", "oletter"],
    (alphabetic \ unions [sentenceLower, sentenceUpper, sentenceExtend]) ∪ singleton '\u05F3'),
  (["lf"], lineFeed),
  (["lo", "lower"], sentenceLower),
  (["nu", "numeric"], unions [decimalNumber, ranges otherNumeric, singleton '\u066C']),
  (["sc", "scontinue"], ranges sentenceContinue),
  (["se", "sep"], ranges [(0x85, 0x85), (0x2028, 0x2029)]),
  (["sp"], ranges spaceSeparator ∪ ranges [(0x9, 0x9), (0xB, 0xC)]),
  (["st", "sterm"], ranges sentenceTerminal \ ranges fullStop),
  (["up", "upper"], sentenceUpper)]

end TreePattern.Unicode.Break
