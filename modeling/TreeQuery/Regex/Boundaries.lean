import TreeQuery.Regex.Properties
import TreeQuery.Unicode.Script

/-!
The parts that characters play at the boundaries of graphemes, words and sentences, by name. A character
plays at most one part of each kind; all others have no name here.
-/

namespace TreeQuery.Regex.Classes

open Unicode

/-- Digits, and signs that stand for numbers or hold them together. -/
def numeric : CharSet := (ofCategories ["Nd"]).union (CharSet.ofRanges [
  (0x600, 0x605), (0x66B, 0x66B), (0x6DD, 0x6DD), (0x890, 0x891), (0x8E2, 0x8E2), (0x110BD, 0x110BD),
  (0x110CD, 0x110CD)])

/-- What goes with the character before it wherever words and sentences end. -/
def attached : CharSet := graphemeExtend.union (ofCategories ["Mc"])

def joiner : CharSet := ⟨[(0x200D, 0x200D)]⟩

namespace Grapheme

def extend : CharSet := graphemeExtend.union (CharSet.ofRanges emojiModifier)

def prepended : CharSet := CharSet.ofRanges (prependedConcatenationMark ++ [
  (0xD4E, 0xD4E), (0x111C2, 0x111C3), (0x113D1, 0x113D1), (0x1193F, 0x1193F), (0x11941, 0x11941),
  (0x11A3A, 0x11A3A), (0x11A84, 0x11A89), (0x11D46, 0x11D46), (0x11F02, 0x11F02)])

def control : CharSet :=
  ((ofCategories ["Zl", "Zp", "Cc", "Cf"]).union ((ofCategories ["Cn"]).inter defaultIgnorable)).difference
    ((prepended.union extend).union ⟨[(0x0A, 0x0A), (0x0D, 0x0D), (0x200D, 0x200D)]⟩)

def spacingMark : CharSet :=
  ((ofCategories ["Mc"]).union ⟨[(0xE33, 0xE33), (0xEB3, 0xEB3)]⟩).difference (extend.union (CharSet.ofRanges [
    (0x102B, 0x102C), (0x1038, 0x1038), (0x1062, 0x1064), (0x1067, 0x106D), (0x1083, 0x1083), (0x1087, 0x108C),
    (0x108F, 0x108F), (0x109A, 0x109C), (0x1A61, 0x1A61), (0x1A63, 0x1A64), (0xAA7B, 0xAA7B), (0xAA7D, 0xAA7D),
    (0x11720, 0x11721)]))

/-- Syllables without a final consonant; there is one for every 28. -/
def openSyllable : CharSet :=
  CharSet.ofRanges ((List.range 399).map fun i => (0xAC00 + 28 * i, 0xAC00 + 28 * i))

def closedSyllable : CharSet :=
  CharSet.ofRanges ((List.range 399).map fun i => (0xAC01 + 28 * i, 0xAC1B + 28 * i))

def named? (name : String) : Option CharSet :=
  match name with
  | "cn" | "control" => some control
  | "cr" => some ⟨[(0x0D, 0x0D)]⟩
  | "ex" | "extend" => some extend
  | "l" => some ⟨[(0x1100, 0x115F), (0xA960, 0xA97C)]⟩
  | "lf" => some ⟨[(0x0A, 0x0A)]⟩
  | "lv" => some openSyllable
  | "lvt" => some closedSyllable
  | "pp" | "prepend" => some prepended
  | "ri" | "regionalindicator" => some (CharSet.ofRanges regionalIndicator)
  | "sm" | "spacingmark" => some spacingMark
  | "t" => some ⟨[(0x11A8, 0x11FF), (0xD7CB, 0xD7FB)]⟩
  | "v" => some ⟨[(0x1160, 0x11A7), (0xD7B0, 0xD7C6), (0x16D63, 0x16D63), (0x16D67, 0x16D6A)]⟩
  | "zwj" => some joiner
  | _ => none

end Grapheme

namespace Word

def extend : CharSet := (attached.union (CharSet.ofRanges emojiModifier)).difference joiner

def format : CharSet :=
  (ofCategories ["Cf"]).difference ((numeric.union extend).union ⟨[(0x70F, 0x70F), (0x200B, 0x200D)]⟩)

def katakana : CharSet := CharSet.ofRanges (labelled ["Kana"] scripts ++
  [(0x3031, 0x3035), (0x309B, 0x309C), (0x30A0, 0x30A0), (0x30FC, 0x30FC), (0xFF70, 0xFF70)])

def hebrewLetter : CharSet := (CharSet.ofRanges (labelled ["Hebr"] scripts)).inter (ofCategories ["Lo"])

def letterLike : CodeRanges := [
  (0xB8, 0xB8), (0x2C2, 0x2C5), (0x2D2, 0x2D7), (0x2DE, 0x2DF), (0x2E5, 0x2EB), (0x2ED, 0x2ED),
  (0x2EF, 0x2FF), (0x55A, 0x55C), (0x55E, 0x55E), (0x58A, 0x58A), (0x5F3, 0x5F3), (0x70F, 0x70F),
  (0xA708, 0xA716), (0xA720, 0xA721), (0xA789, 0xA78A), (0xAB5B, 0xAB5B)]

/-- South-East Asian writing, in which only a dictionary can tell words apart. -/
def complexContext : CodeRanges := [
  (0xE01, 0xE3A), (0xE40, 0xE4E), (0xE81, 0xE82), (0xE84, 0xE84), (0xE86, 0xE8A), (0xE8C, 0xEA3),
  (0xEA5, 0xEA5), (0xEA7, 0xEBD), (0xEC0, 0xEC4), (0xEC6, 0xEC6), (0xEC8, 0xECE), (0xEDC, 0xEDF),
  (0x1000, 0x103F), (0x1050, 0x108F), (0x109A, 0x109F), (0x1780, 0x17D3), (0x17D7, 0x17D7),
  (0x17DC, 0x17DD), (0x1950, 0x196D), (0x1970, 0x1974), (0x1980, 0x19AB), (0x19B0, 0x19C9),
  (0x19DA, 0x19DA), (0x19DE, 0x19DF), (0x1A20, 0x1A5E), (0x1A60, 0x1A7C), (0x1AA0, 0x1AAD),
  (0xA9E0, 0xA9EF), (0xA9FA, 0xA9FE), (0xAA60, 0xAAC2), (0xAADB, 0xAADF), (0x11700, 0x1171A),
  (0x1171D, 0x1172B), (0x1173A, 0x1173B), (0x1173F, 0x11746)]

def letter : CharSet :=
  (alphabetic.union (CharSet.ofRanges letterLike)).difference
    (((CharSet.ofRanges (ideographic ++ complexContext ++ labelled ["Hira"] scripts)).union katakana).union
      (hebrewLetter.union extend))

def named? (name : String) : Option CharSet :=
  match name with
  | "aletter" | "le" => some letter
  | "cr" => some ⟨[(0x0D, 0x0D)]⟩
  | "doublequote" | "dq" => some ⟨[(0x22, 0x22)]⟩
  | "extend" => some extend
  | "extendnumlet" | "ex" => some ((ofCategories ["Pc"]).union ⟨[(0x202F, 0x202F)]⟩)
  | "format" | "fo" => some format
  | "hebrewletter" | "hl" => some hebrewLetter
  | "katakana" | "ka" => some katakana
  | "lf" => some ⟨[(0x0A, 0x0A)]⟩
  | "midletter" | "ml" => some ⟨[(0x3A, 0x3A), (0xB7, 0xB7), (0x387, 0x387), (0x55F, 0x55F), (0x5F4, 0x5F4),
      (0x2027, 0x2027), (0xFE13, 0xFE13), (0xFE55, 0xFE55), (0xFF1A, 0xFF1A)]⟩
  | "midnum" | "mn" => some ⟨[(0x2C, 0x2C), (0x3B, 0x3B), (0x37E, 0x37E), (0x589, 0x589), (0x60C, 0x60D),
      (0x66C, 0x66C), (0x7F8, 0x7F8), (0x2044, 0x2044), (0xFE10, 0xFE10), (0xFE14, 0xFE14), (0xFE50, 0xFE50),
      (0xFE54, 0xFE54), (0xFF0C, 0xFF0C), (0xFF1B, 0xFF1B)]⟩
  | "midnumlet" | "mb" => some ⟨[(0x2E, 0x2E), (0x2018, 0x2019), (0x2024, 0x2024), (0xFE52, 0xFE52),
      (0xFF07, 0xFF07), (0xFF0E, 0xFF0E)]⟩
  | "newline" | "nl" => some ⟨[(0x0B, 0x0C), (0x85, 0x85), (0x2028, 0x2029)]⟩
  | "numeric" | "nu" => some numeric
  | "regionalindicator" | "ri" => some (CharSet.ofRanges regionalIndicator)
  | "singlequote" | "sq" => some ⟨[(0x27, 0x27)]⟩
  | "wsegspace" => some ((ofCategories ["Zs"]).difference ⟨[(0xA0, 0xA0), (0x2007, 0x2007), (0x202F, 0x202F)]⟩)
  | "zwj" => some joiner
  | _ => none

end Word

namespace Sentence

def extend : CharSet := attached.union joiner

def separator : CharSet := ⟨[(0x85, 0x85), (0x2028, 0x2029)]⟩

def blank : CharSet := (CharSet.ofRanges whiteSpace).difference (separator.union ⟨[(0x0A, 0x0A), (0x0D, 0x0D)]⟩)

/-- Lower-case letters, without those of Georgian, which has no sentence case. -/
def lower : CharSet := lowercase.difference (graphemeExtend.union ⟨[(0x10D0, 0x10FA), (0x10FD, 0x10FF)]⟩)

def upper : CharSet :=
  (uppercase.union (ofCategories ["Lt"])).difference ⟨[(0x1C90, 0x1CBA), (0x1CBD, 0x1CBF)]⟩

def otherLetter : CharSet :=
  (alphabetic.union ⟨[(0x5F3, 0x5F3)]⟩).difference ((lower.union upper).union extend)

def fullStop : CharSet := ⟨[(0x2E, 0x2E), (0x2024, 0x2024), (0xFE52, 0xFE52), (0xFF0E, 0xFF0E)]⟩

def terminal : CharSet := (CharSet.ofRanges sentenceTerminal).difference fullStop

def closing : CharSet := (ofCategories ["Ps", "Pe", "Pi", "Pf"]).union (CharSet.ofRanges [
  (0x22, 0x22), (0x27, 0x27), (0x275B, 0x2760), (0x2E00, 0x2E01), (0x2E06, 0x2E08), (0x2E0B, 0x2E0B),
  (0x1F676, 0x1F678)])

def continuing : CharSet := ⟨[(0x2C, 0x2D), (0x3A, 0x3B), (0x37E, 0x37E), (0x55D, 0x55D), (0x60C, 0x60D),
  (0x7F8, 0x7F8), (0x1802, 0x1802), (0x1808, 0x1808), (0x2013, 0x2014), (0x3001, 0x3001), (0xFE10, 0xFE11),
  (0xFE13, 0xFE14), (0xFE31, 0xFE32), (0xFE50, 0xFE51), (0xFE54, 0xFE55), (0xFE58, 0xFE58), (0xFE63, 0xFE63),
  (0xFF0C, 0xFF0D), (0xFF1A, 0xFF1B), (0xFF64, 0xFF64)]⟩

def number : CharSet := numeric.union ⟨[(0x66C, 0x66C)]⟩

def format : CharSet := (ofCategories ["Cf"]).difference (number.union extend)

def named? (name : String) : Option CharSet :=
  match name with
  | "aterm" | "at" => some fullStop
  | "close" | "cl" => some closing
  | "cr" => some ⟨[(0x0D, 0x0D)]⟩
  | "extend" | "ex" => some extend
  | "format" | "fo" => some format
  | "lf" => some ⟨[(0x0A, 0x0A)]⟩
  | "lower" | "lo" => some lower
  | "numeric" | "nu" => some number
  | "oletter" | "le" => some otherLetter
  | "scontinue" | "sc" => some continuing
  | "sep" | "se" => some separator
  | "sp" => some blank
  | "sterm" | "st" => some terminal
  | "upper" | "up" => some upper
  | _ => none

end Sentence

end TreeQuery.Regex.Classes
