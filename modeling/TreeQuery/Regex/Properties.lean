import TreeQuery.Regex.Classes
import TreeQuery.Unicode.Case

/-!
Binary properties of characters by name. Some are listed, the others are combined from listed ones and
the general category.
-/

namespace TreeQuery.Regex.Classes

open Unicode

def mathematical : CharSet := (ofCategories ["Sm"]).union (CharSet.ofRanges otherMath)

def cased : CharSet := (lowercase.union uppercase).union (ofCategories ["Lt"])

/-- Characters that may stand between a word and the letter that decides its case. -/
def caseIgnorable : CharSet :=
  (ofCategories ["Mn", "Me", "Cf", "Lm", "Sk"]).union (CharSet.ofRanges [
    (0x27, 0x27), (0x2E, 0x2E), (0x3A, 0x3A), (0xB7, 0xB7), (0x387, 0x387), (0x55F, 0x55F), (0x5F4, 0x5F4),
    (0x2018, 0x2019), (0x2024, 0x2024), (0x2027, 0x2027), (0xFE13, 0xFE13), (0xFE52, 0xFE52), (0xFE55, 0xFE55),
    (0xFF07, 0xFF07), (0xFF0E, 0xFF0E), (0xFF1A, 0xFF1A)])

def changesWhenCasemapped : CharSet :=
  CharSet.ofRanges (changesWhenLowercased ++ changesWhenUppercased ++ changesWhenTitlecased)

def graphemeExtend : CharSet := (ofCategories ["Mn", "Me"]).union (CharSet.ofRanges otherGraphemeExtend)

/-- Characters that a grapheme can begin with. -/
def graphemeBase : CharSet :=
  ((ofCategories ["Cc", "Cf", "Cs", "Co", "Cn", "Zl", "Zp"]).union graphemeExtend).complement

def defaultIgnorable : CharSet :=
  ((ofCategories ["Cf"]).union (CharSet.ofRanges (otherDefaultIgnorable ++ variationSelector))).difference
    (CharSet.ofRanges (whiteSpace ++ prependedConcatenationMark ++ [(0xFFF9, 0xFFFB), (0x13430, 0x1343F)]))

/-- What the grammar of patterns uses, which identifiers leave out. -/
def patternGrammar : CharSet := CharSet.ofRanges (patternSyntax ++ patternWhiteSpace)

def idStart : CharSet :=
  ((letters.union (ofCategories ["Nl"])).union (CharSet.ofRanges otherIdStart)).difference patternGrammar

def idContinue : CharSet :=
  ((idStart.union (ofCategories ["Mn", "Mc", "Nd", "Pc"])).union (CharSet.ofRanges otherIdContinue)).difference
    patternGrammar

/-- Characters whose compatibility forms break identifiers apart. -/
def unstableIdentifiers : CodeRanges := [
  (0x37A, 0x37A), (0x309B, 0x309C), (0xFC5E, 0xFC63), (0xFDFA, 0xFDFB), (0xFE70, 0xFE70), (0xFE72, 0xFE72),
  (0xFE74, 0xFE74), (0xFE76, 0xFE76), (0xFE78, 0xFE78), (0xFE7A, 0xFE7A), (0xFE7C, 0xFE7C), (0xFE7E, 0xFE7E)]

/-- Starts of identifiers that stay so in their compatibility forms. -/
def stableIdStart : CharSet := idStart.difference
  (CharSet.ofRanges (unstableIdentifiers ++ [(0xE33, 0xE33), (0xEB3, 0xEB3), (0xFF9E, 0xFF9F)]))

def stableIdContinue : CharSet := idContinue.difference (CharSet.ofRanges unstableIdentifiers)

def combined? (name : String) : Option CharSet :=
  match name with
  | "alphabetic" | "alpha" => some alphabetic
  | "cased" => some cased
  | "caseignorable" | "ci" => some caseIgnorable
  | "changeswhencasemapped" | "cwcm" => some changesWhenCasemapped
  | "defaultignorablecodepoint" | "di" => some defaultIgnorable
  | "graphemebase" | "grbase" => some graphemeBase
  | "graphemeextend" | "grext" => some graphemeExtend
  | "idcontinue" | "idc" => some idContinue
  | "idstart" | "ids" => some idStart
  | "lowercase" | "lower" => some lowercase
  | "math" => some mathematical
  | "uppercase" | "upper" => some uppercase
  | "xidcontinue" | "xidc" => some stableIdContinue
  | "xidstart" | "xids" => some stableIdStart
  | _ => none

def listed? (name : String) : Option CodeRanges :=
  match name with
  | "asciihexdigit" | "ahex" => some [(0x30, 0x39), (0x41, 0x46), (0x61, 0x66)]
  | "bidicontrol" | "bidic" => some bidiControl
  | "bidimirrored" | "bidim" => some bidiMirrored
  | "changeswhencasefolded" | "cwcf" => some changesWhenCasefolded
  | "changeswhenlowercased" | "cwl" => some changesWhenLowercased
  | "changeswhentitlecased" | "cwt" => some changesWhenTitlecased
  | "changeswhenuppercased" | "cwu" => some changesWhenUppercased
  | "dash" => some dash
  | "deprecated" | "dep" => some deprecatedCharacters
  | "diacritic" | "dia" => some diacritic
  | "emoji" => some emoji
  | "emojicomponent" | "ecomp" => some emojiComponent
  | "emojimodifier" | "emod" => some emojiModifier
  | "emojimodifierbase" | "ebase" => some emojiModifierBase
  | "emojipresentation" | "epres" => some emojiPresentation
  | "extendedpictographic" | "extpict" => some extendedPictographic
  | "extender" | "ext" => some extender
  | "graphemelink" | "grlink" => some graphemeLink
  | "hexdigit" | "hex" => some hexDigit
  | "hyphen" => some hyphen
  | "idsbinaryoperator" | "idsb" => some binaryDescription
  | "idstrinaryoperator" | "idst" => some trinaryDescription
  | "idsunaryoperator" | "idsu" => some unaryDescription
  | "idcompatmathcontinue" => some compatibleMathContinue
  | "idcompatmathstart" => some compatibleMathStart
  | "ideographic" | "ideo" => some ideographic
  | "joincontrol" | "joinc" => some [(0x200C, 0x200D)]
  | "logicalorderexception" | "loe" => some logicalOrderException
  | "modifiercombiningmark" | "mcm" => some modifierCombiningMark
  | "noncharactercodepoint" | "nchar" => some noncharacter
  | "otheralphabetic" | "oalpha" => some otherAlphabetic
  | "otherdefaultignorablecodepoint" | "odi" => some otherDefaultIgnorable
  | "othergraphemeextend" | "ogrext" => some otherGraphemeExtend
  | "otheridcontinue" | "oidc" => some otherIdContinue
  | "otheridstart" | "oids" => some otherIdStart
  | "otherlowercase" | "olower" => some otherLowercase
  | "othermath" | "omath" => some otherMath
  | "otheruppercase" | "oupper" => some otherUppercase
  | "patternsyntax" | "patsyn" => some patternSyntax
  | "patternwhitespace" | "patws" => some patternWhiteSpace
  | "prependedconcatenationmark" | "pcm" => some prependedConcatenationMark
  | "quotationmark" | "qmark" => some quotationMark
  | "radical" => some radical
  | "regionalindicator" | "ri" => some regionalIndicator
  | "sentenceterminal" | "sterm" => some sentenceTerminal
  | "softdotted" | "sd" => some softDotted
  | "terminalpunctuation" | "term" => some terminalPunctuation
  | "unifiedideograph" | "uideo" => some unifiedIdeograph
  | "variationselector" | "vs" => some variationSelector
  | "whitespace" | "wspace" | "space" => some whiteSpace
  | _ => none

def property? (name : String) : Option CharSet :=
  (combined? name).orElse fun _ => (listed? name).map CharSet.ofRanges

end TreeQuery.Regex.Classes
