import TreeQuery.Proofs.Path.Literals

/-!
# Written filters

A text for every filter that is built from comparisons with values, membership in lists and intervals. Parentheses
stand around groups to the right of a connective; groups to the left need none, as connectives chain from the left.
-/

namespace TreeQuery

/-- What the language leaves open: the quotes, the blanks between words, and whether operands are anchored. -/
structure FilterStyle where
  quote : Char
  gap : List Char
  anchored : Bool
  isQuote_quote : isQuote quote = true
  gap_ne_nil : gap ≠ []
  isBlank_gap : ∀ c ∈ gap, Text.isBlank c = true

namespace FilterStyle

variable (style : FilterStyle)

def anchor : List Char := if style.anchored then ['@', '.'] else []

def operand : Operand → List Char
  | .property name => style.anchor ++ escapeName name.text.toList
  | .size => style.anchor ++ ['s', 'i', 'z', 'e', '(', ')']
  | .kind => style.anchor ++ ['t', 'y', 'p', 'e', '(', ')']

def quoted (text : String) : List Char := style.quote :: (quoteText style.quote text.toList ++ [style.quote])

def listTail : List (List Char) → List Char
  | [] => [')']
  | text :: texts => ',' :: (style.gap ++ (text ++ listTail texts))

def list : List (List Char) → List Char
  | [] => ['(', ')']
  | text :: texts => '(' :: (text ++ style.listTail texts)

/-- An operator in words, which `not` turns round. -/
def negatable (negated : Bool) (word : List Char) : List Char :=
  if negated then ['n', 'o', 't'] ++ (style.gap ++ word) else word

def test (operand : Operand) (operator value : List Char) : List Char :=
  style.operand operand ++ (style.gap ++ (operator ++ (style.gap ++ value)))

end FilterStyle

def Comparison.chars : Comparison → List Char
  | eq => ['=', '=']
  | ne => ['!', '=']
  | gt => ['>']
  | ge => ['>', '=']
  | lt => ['<']
  | le => ['<', '=']

def Connective.chars : Connective → List Char
  | and => ['&', '&']
  | or => ['|', '|']

def Literal.chars : Literal → List Char
  | integer value => intText value
  | decimal value => value.toChars

def enclose (grouped : Bool) (text : List Char) : List Char := if grouped then '(' :: (text ++ [')']) else text

def nullText : List Char := ['n', 'u', 'l', 'l']

def boolText (value : Bool) : List Char := if value then ['t', 'r', 'u', 'e'] else ['f', 'a', 'l', 's', 'e']

namespace Filter

def isGroup : Filter → Bool
  | group .. => true
  | _ => false

/-- Patterns and references to other paths are not written. -/
def write (style : FilterStyle) : Filter → List Char
  | present operand => style.operand operand
  | absent operand => style.test operand Comparison.eq.chars nullText
  | integer operand test value => style.test operand test.chars (intText value)
  | decimal operand test value => style.test operand test.chars value.toChars
  | string operand test value => style.test operand test.chars (style.quoted value)
  | bool operand value equal => style.test operand (if equal then Comparison.eq else .ne).chars (boolText value)
  | integers operand values negated =>
    style.test operand (style.negatable negated ['i', 'n']) (style.list (values.map intText))
  | strings operand values negated =>
    style.test operand (style.negatable negated ['i', 'n']) (style.list (values.map style.quoted))
  | nullableIntegers operand values negated =>
    style.test operand (style.negatable negated ['i', 'n'])
      (style.list (values.map fun value => (value.map intText).getD nullText))
  | between operand low high negated =>
    style.test operand (style.negatable negated ['b', 'e', 't', 'w', 'e', 'e', 'n'])
      (low.chars ++ (style.gap ++ (['a', 'n', 'd'] ++ (style.gap ++ high.chars))))
  | group connective left right =>
    left.write style ++ (style.gap ++ (connective.chars ++ (style.gap ++
      enclose right.isGroup (right.write style))))
  | like .. | rlike .. | regex .. | reference .. => []

/-- The path whose only segment is the filter. -/
def pathText (style : FilterStyle) (filter : Filter) : String :=
  "$[?(" ++ String.ofList (filter.write style) ++ ")]"

end Filter

/-- Properties have a name to write, and keep its hash. -/
def Operand.IsNamed : Operand → Prop
  | property name => name.text ≠ "" ∧ HashedName.ofText name.text = name
  | _ => True

instance : (operand : Operand) → Decidable operand.IsNamed
  | .property name => inferInstanceAs (Decidable (name.text ≠ "" ∧ HashedName.ofText name.text = name))
  | .size | .kind => inferInstanceAs (Decidable True)

/-- The filters that are written: numbers are in range and keep their form, and lists their length. -/
inductive Filter.Writable : Filter → Prop
  | present {operand : Operand} (hoperand : operand.IsNamed) : Writable (.present operand)
  | absent {operand : Operand} (hoperand : operand.IsNamed) : Writable (.absent operand)
  | integer {operand : Operand} (hoperand : operand.IsNamed) (test : Comparison) {value : Int}
      (hvalue : InWord value) : Writable (.integer operand test value)
  | decimal {operand : Operand} (hoperand : operand.IsNamed) (test : Comparison) {value : Decimal}
      (hvalue : value.InRange) (hscale : 1 ≤ value.scale) : Writable (.decimal operand test value)
  | string {operand : Operand} (hoperand : operand.IsNamed) (test : Comparison) (value : String) :
      Writable (.string operand test value)
  | bool {operand : Operand} (hoperand : operand.IsNamed) (value equal : Bool) : Writable (.bool operand value equal)
  | integers {operand : Operand} (hoperand : operand.IsNamed) {values : List Int} (hlength : values.length ≠ 1)
      (hvalues : ∀ value ∈ values, InWord value) (negated : Bool) : Writable (.integers operand values negated)
  | strings {operand : Operand} (hoperand : operand.IsNamed) {values : List String} (hlength : 2 ≤ values.length)
      (negated : Bool) : Writable (.strings operand values negated)
  | nullableIntegers {operand : Operand} (hoperand : operand.IsNamed) {values : List (Option Int)}
      (hlength : 2 ≤ values.length) (hnull : none ∈ values) (hvalues : ∀ value, some value ∈ values → InWord value)
      (negated : Bool) : Writable (.nullableIntegers operand values negated)
  | between {operand : Operand} (hoperand : operand.IsNamed) {low high : Int} (hlow : InWord low)
      (hhigh : InWord high) (negated : Bool) : Writable (.between operand (.integer low) (.integer high) negated)
  | group {left right : Filter} (connective : Connective) (hleft : Writable left) (hright : Writable right) :
      Writable (.group connective left right)

end TreeQuery
