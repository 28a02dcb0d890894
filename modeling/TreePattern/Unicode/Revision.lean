import TreePattern.Unicode.Property

/-! What version 17 of the standard adds to version 16. Regular expressions are bound to version 16,
which the tables of the properties hold; all else that is said of characters follows version 17. -/

namespace TreePattern.Unicode.Revision

open CharSet PropertyData

/-- The new characters, all of which show on the page. -/
def added : Ranges := .ofHex
  "88F C5C CDC 1ACF-1ADD 1AE0-1AEB 20C1 2B96 A7CE-A7CF A7D2 A7D4 A7F1 FBC3-FBD2 FD90-FD91
  FDC8-FDCE 10940-10959 10EC5-10EC7 10ED0-10ED8 10EFA-10EFB 11B60-11B67 11DB0-11DDB
  11DE0-11DE9 16EA0-16EB8 16EBB-16ED3 16FF2-16FF6 187F8-187FF 18D09-18D1E 18D80-18DF2
  1CCFA-1CCFC 1CEBA-1CED0 1CEE0-1CEF0 1E6C0-1E6DE 1E6E0-1E6F5 1E6FE-1E6FF 1F6D8 1F777-1F77A
  1F8D0-1F8D8 1FA54-1FA57 1FA8A 1FA8E 1FAC8 1FACD 1FAEA 1FAEF 1FBFA 2B73A-2B73F 2CEA2-2CEAD
  323B0-33479"

def addedAlphabetic : Ranges := .ofHex
  "88F C5C CDC A7CE-A7CF A7D2 A7D4 A7F1 10940-10959 10EC5-10EC7 10EFA-10EFB 11B60-11B67
  11DB0-11DDB 16EA0-16EB8 16EBB-16ED3 16FF2-16FF6 187F8-187FF 18D09-18D1E 18D80-18DF2
  1E6C0-1E6DE 1E6E0-1E6F5 1E6FE-1E6FF 2B73A-2B73F 2CEA2-2CEAD 323B0-33479"

def addedNumber : Ranges := .ofHex
  "11DE0-11DE9 16FF4-16FF6"

def addedCased : Ranges := .ofHex
  "A7CE-A7CF A7D2 A7D4 A7F1 16EA0-16EB8 16EBB-16ED3"

def addedCaseIgnorable : Ranges := .ofHex
  "1ACF-1ADD 1AE0-1AEB A7F1 10EC5 10EFA-10EFB 11B60 11B62-11B64 11B66 11DD9 16FF2-16FF3 1E6E3
  1E6E6 1E6EE-1E6EF 1E6F5 1E6FF"

def addedGraphemeExtend : Ranges := .ofHex
  "1ACF-1ADD 1AE0-1AEB 10EFA-10EFB 11B60 11B62-11B64 11B66 1E6E3 1E6E6 1E6EE-1E6EF 1E6F5"

def addedCaseRuns : List CaseRun := [
  ⟨0xA7CE, 0xA7CE, 1, 0xA7CF⟩, ⟨0xA7D2, 0xA7D4, 2, 0xA7D3⟩, ⟨0x16EA0, 0x16EB8, 1, 0x16EBB⟩]

def graphic : CharSet := Property.graphic ∪ ranges added

def alphabetic : CharSet := Property.alphabetic ∪ ranges addedAlphabetic

def alphanumeric : CharSet := unions [alphabetic, Property.number, ranges addedNumber]

/-- Letters with case. The pharyngeal fricative is no longer one of them. -/
def cased : CharSet := (Property.cased ∪ ranges addedCased) \ singleton 'ʕ'

def caseIgnorable : CharSet := Property.caseIgnorable ∪ ranges addedCaseIgnorable

def graphemeExtend : CharSet := Property.graphemeExtend ∪ ranges addedGraphemeExtend

def toLower (c : Char) : Char := lowerBy (caseRuns ++ addedCaseRuns) c

end TreePattern.Unicode.Revision
