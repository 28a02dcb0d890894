import TreePattern.Unicode.Age
import TreePattern.Unicode.Break
import TreePattern.Unicode.Script

/-! Looking up character properties by name. Case, spaces, hyphens and underscores do not count in a
name, and neither does a leading `is`. -/

namespace TreePattern.Unicode.Property

open CharSet Category PropertyData

/-- A name without what does not count in it. -/
def foldName (name : List Char) : String :=
  let kept (cs : List Char) : List Char :=
    (cs.filter fun c => c.toNat < 0x80 && c != ' ' && c != '_' && c != '-').map Char.toLower
  match name with
  | 'i' :: 's' :: rest | 'I' :: 's' :: rest | 'i' :: 'S' :: rest | 'I' :: 'S' :: rest =>
    -- "isc" is the name of a property of its own, not the category "c"
    if kept rest = ['c'] then "isc" else .ofList (kept rest)
  | _ => .ofList (kept name)

def categories : List (List String × CharSet) := [
  (["any"], ~~~empty),
  (["assigned"], assigned),
  (["ascii"], ranges [(0, 0x7F)]),
  (["l", "letter"], letter),
  (["lc", "casedletter"], casedLetter),
  (["lu", "uppercaseletter"], ranges uppercaseLetter),
  (["ll", "lowercaseletter"], ranges lowercaseLetter),
  (["lt", "titlecaseletter"], ranges titlecaseLetter),
  (["lm", "modifierletter"], ranges modifierLetter),
  (["lo", "otherletter"], ranges otherLetter),
  (["m", "mark", "combiningmark"], mark),
  (["mn", "nonspacingmark"], ranges nonspacingMark),
  (["mc", "spacingmark"], ranges spacingMark),
  (["me", "enclosingmark"], ranges enclosingMark),
  (["n", "number"], number),
  (["nd", "decimalnumber", "digit"], decimalNumber),
  (["nl", "letternumber"], ranges letterNumber),
  (["no", "othernumber"], ranges otherNumber),
  (["p", "punctuation", "punct"], punctuation),
  (["pc", "connectorpunctuation"], ranges connectorPunctuation),
  (["pd", "dashpunctuation"], ranges dashPunctuation),
  (["ps", "openpunctuation"], ranges openPunctuation),
  (["pe", "closepunctuation"], ranges closePunctuation),
  (["pi", "initialpunctuation"], ranges initialPunctuation),
  (["pf", "finalpunctuation"], ranges finalPunctuation),
  (["po", "otherpunctuation"], ranges otherPunctuation),
  (["s", "symbol"], symbol),
  (["sm", "mathsymbol"], ranges mathSymbol),
  (["sc", "currencysymbol"], ranges currencySymbol),
  (["sk", "modifiersymbol"], ranges modifierSymbol),
  (["so", "othersymbol"], ranges otherSymbol),
  (["z", "separator"], separator),
  (["zs", "spaceseparator"], ranges spaceSeparator),
  (["zl", "lineseparator"], ranges lineSeparator),
  (["zp", "paragraphseparator"], ranges paragraphSeparator),
  (["c", "other"], other),
  (["cc", "control", "cntrl"], ranges control),
  (["cf", "format"], ranges format),
  (["co", "privateuse"], ranges privateUse),
  (["cn", "unassigned"], ~~~assigned)]

def binaries : List (List String × CharSet) := [
  (["ahex", "asciihexdigit"], ranges asciiHexDigit),
  (["alpha", "alphabetic"], alphabetic),
  (["bidic", "bidicontrol"], ranges bidiControl),
  (["bidim", "bidimirrored"], ranges bidiMirrored),
  (["ci", "caseignorable"], caseIgnorable),
  (["cased"], cased),
  (["cwcf", "changeswhencasefolded"], changesCasefolded),
  (["cwcm", "changeswhencasemapped"], changesCasemapped),
  (["cwl", "changeswhenlowercased"], changesLowercased),
  (["cwt", "changeswhentitlecased"], changesTitlecased),
  (["cwu", "changeswhenuppercased"], changesUppercased),
  (["dash"], ranges dash),
  (["di", "defaultignorablecodepoint"], ranges defaultIgnorable),
  (["dep", "deprecated"], ranges PropertyData.deprecated),
  (["dia", "diacritic"], ranges diacritic),
  (["emoji"], ranges emoji),
  (["ecomp", "emojicomponent"], ranges emojiComponent),
  (["emod", "emojimodifier"], ranges emojiModifier),
  (["ebase", "emojimodifierbase"], ranges emojiModifierBase),
  (["epres", "emojipresentation"], ranges emojiPresentation),
  (["extpict", "extendedpictographic"], ranges extendedPictographic),
  (["ext", "extender"], ranges extender),
  (["grbase", "graphemebase"], graphemeBase),
  (["grext", "graphemeextend"], graphemeExtend),
  (["grlink", "graphemelink"], ranges graphemeLink),
  (["hex", "hexdigit"], ranges hexDigit),
  (["hyphen"], ranges hyphen),
  (["idsb", "idsbinaryoperator"], ranges idsBinaryOperator),
  (["idst", "idstrinaryoperator"], ranges idsTrinaryOperator),
  (["idsu", "idsunaryoperator"], ranges idsUnaryOperator),
  (["idc", "idcontinue"], identifierContinue),
  (["ids", "idstart"], identifierStart),
  (["idcompatmathstart"], ranges compatMathStart),
  (["idcompatmathcontinue"], ranges compatMathStart ∪ ranges compatMathMore),
  (["ideo", "ideographic"], ranges ideographic),
  (["joinc", "joincontrol"], ranges joinControl),
  (["loe", "logicalorderexception"], ranges logicalOrderException),
  (["lower", "lowercase"], lowercase),
  (["math"], math),
  (["mcm", "modifiercombiningmark"], ranges modifierCombiningMark),
  (["nchar", "noncharactercodepoint"], ranges noncharacter),
  (["oalpha", "otheralphabetic"], ranges otherAlphabetic),
  (["odi", "otherdefaultignorablecodepoint"], ranges otherDefaultIgnorable),
  (["ogrext", "othergraphemeextend"], ranges otherGraphemeExtend),
  (["oidc", "otheridcontinue"], ranges otherIdentifierContinue),
  (["oids", "otheridstart"], ranges otherIdentifierStart),
  (["olower", "otherlowercase"], ranges otherLowercase),
  (["omath", "othermath"], ranges otherMath),
  (["oupper", "otheruppercase"], ranges otherUppercase),
  (["patsyn", "patternsyntax"], ranges patternSyntax),
  (["patws", "patternwhitespace"], ranges patternWhiteSpace),
  (["pcm", "prependedconcatenationmark"], ranges prependedConcatenationMark),
  (["qmark", "quotationmark"], ranges quotationMark),
  (["radical"], ranges radical),
  (["ri", "regionalindicator"], ranges regionalIndicator),
  (["sterm", "sentenceterminal"], ranges sentenceTerminal),
  (["sd", "softdotted"], ranges softDotted),
  (["term", "terminalpunctuation"], ranges terminalPunctuation),
  (["uideo", "unifiedideograph"], ranges unifiedIdeograph),
  (["upper", "uppercase"], uppercase),
  (["vs", "variationselector"], ranges variationSelector),
  (["wspace", "whitespace", "space"], ranges whiteSpace),
  (["xidc", "xidcontinue"], identifierContinue \ ranges notIdentifierContinueNormalized),
  (["xids", "xidstart"], identifierStart \ ranges notIdentifierStartNormalized)]

def find? (table : List (List String × CharSet)) (name : String) : Option CharSet :=
  (table.find? (·.1.contains name)).map (·.2)

def script? (name : String) : Option Script :=
  let name := if name = "qaac" then "coptic" else if name = "qaai" then "inherited" else name
  Script.all.find? fun s => foldName s.code.toList = name || foldName s.name.toList = name

/-- The characters that a script is used with. For the two scripts of shared characters these are
the ones that no extension of another script lists. -/
def extended (s : Script) : CharSet :=
  if s.name = "Common" ∨ s.name = "Inherited" then
    ranges s.ranges \ unions (Script.all.map (ranges ·.extension))
  else ranges s.ranges ∪ ranges s.extension

/-- The property written `\p{name}`: a two-valued property, a general category or a script. -/
def named? (name : List Char) : Option CharSet :=
  let key := foldName name
  find? binaries key <|> find? categories key <|> (script? key).map (ranges ·.ranges)

/-- The property written `\p{name=value}`. -/
def valued? (name value : List Char) : Option CharSet :=
  let key := foldName value
  match foldName name with
  | "gc" | "generalcategory" => find? categories key
  | "sc" | "script" => (script? key).map (ranges ·.ranges)
  | "scx" | "scriptextensions" => (script? key).map extended
  | "age" => Age.upTo? key Age.all
  | "gcb" | "graphemeclusterbreak" => find? Break.grapheme key
  | "wb" | "wordbreak" => find? Break.word key
  | "sb" | "sentencebreak" => find? Break.sentence key
  | _ => none

end TreePattern.Unicode.Property
