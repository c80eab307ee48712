import TreeQuery.Regex.CharSet
import TreeQuery.Unicode.Category
import TreeQuery.Unicode.Properties

/-!
The classes of characters that patterns use without naming a property: digits, words and spaces, and the
bracketed ASCII classes.
-/

namespace TreeQuery.Regex.Classes

open Unicode

def ofCategories (labels : List String) : CharSet := CharSet.ofRanges (labelled labels categories)

def letters : CharSet := ofCategories ["Lu", "Ll", "Lt", "Lm", "Lo"]

def alphabetic : CharSet := (letters.union (ofCategories ["Nl"])).union (CharSet.ofRanges otherAlphabetic)

def lowercase : CharSet := (ofCategories ["Ll"]).union (CharSet.ofRanges otherLowercase)

def uppercase : CharSet := (ofCategories ["Lu"]).union (CharSet.ofRanges otherUppercase)

def digit : CharSet := ofCategories ["Nd"]

def space : CharSet := CharSet.ofRanges whiteSpace

/-- Letters, marks, digits, connectors, and the two characters that join or part letters. -/
def word : CharSet :=
  (alphabetic.union (ofCategories ["Mn", "Mc", "Me", "Nd", "Pc"])).union (CharSet.ofRanges [(0x200C, 0x200D)])

def asciiDigit : CharSet := CharSet.range '0' '9'

def asciiSpace : CharSet := CharSet.ofChars ['\t', '\n', '\x0b', '\x0c', '\r', ' ']

def asciiAlpha : CharSet := (CharSet.range 'A' 'Z').union (CharSet.range 'a' 'z')

def asciiAlnum : CharSet := asciiAlpha.union asciiDigit

def asciiWord : CharSet := asciiAlnum.union (CharSet.single '_')

def asciiPunct : CharSet := CharSet.ofRanges [(0x21, 0x2F), (0x3A, 0x40), (0x5B, 0x60), (0x7B, 0x7E)]

/-- The class written with this name between colons. -/
def ascii? (name : String) : Option CharSet :=
  match name with
  | "alnum" => some asciiAlnum
  | "alpha" => some asciiAlpha
  | "ascii" => some ⟨[(0, 0x7F)]⟩
  | "blank" => some (CharSet.ofChars ['\t', ' '])
  | "cntrl" => some ⟨[(0, 0x1F), (0x7F, 0x7F)]⟩
  | "digit" => some asciiDigit
  | "graph" => some ⟨[(0x21, 0x7E)]⟩
  | "lower" => some (CharSet.range 'a' 'z')
  | "print" => some ⟨[(0x20, 0x7E)]⟩
  | "punct" => some asciiPunct
  | "space" => some asciiSpace
  | "upper" => some (CharSet.range 'A' 'Z')
  | "word" => some asciiWord
  | "xdigit" => some ((asciiDigit.union (CharSet.range 'A' 'F')).union (CharSet.range 'a' 'f'))
  | _ => none

end TreeQuery.Regex.Classes
