import TreeQuery.Tree.Entries
import TreeQuery.Decimal.Text
import TreeQuery.Binary64.Shortest

/-!
The trees that paths are evaluated against: JSON documents whose numbers keep their exact form, and
which may hold shared records.
-/

namespace TreeQuery

/--
Integers have 64 bits; other numbers are decimals, and those beyond the range of decimals are binary.
A record is a shared object, known by its handle; its entries are those of the moment it was looked at.
-/
inductive Tree
  | null
  | bool (value : Bool)
  | integer (value : Int)
  | decimal (value : Decimal)
  | float (value : Binary64)
  | string (text : String)
  | array (items : List Tree)
  | object (entries : List (String × Tree))
  | record (handle : Nat) (entries : List (String × Tree))
deriving Inhabited

namespace Tree

def isNull : Tree → Bool
  | null => true
  | _ => false

def isNumber : Tree → Bool
  | integer _ | decimal _ | float _ => true
  | _ => false

def isArray : Tree → Bool
  | array _ => true
  | _ => false

def isScalar : Tree → Bool
  | array _ | object _ | record .. => false
  | _ => true

def kindName : Tree → String
  | null => "null"
  | bool _ => "boolean"
  | integer _ | decimal _ | float _ => "number"
  | string _ => "string"
  | array _ => "array"
  | object _ | record .. => "object"

def asString? : Tree → Option String
  | string text => some text
  | _ => none

def asBool? : Tree → Option Bool
  | bool value => some value
  | _ => none

def asInteger? : Tree → Option Int
  | integer value => some value
  | _ => none

/-- The text that string comparison and pattern matching see; null and containers have none. -/
def scalarText? : Tree → Option String
  | string text => some text
  | bool value => some (if value then "true" else "false")
  | integer value => some (toString value)
  | decimal value => some value.toText
  | float value => some value.toText
  | _ => none

/-- A binary number as a decimal if its shortest digits fit one. -/
def ofBinary64 (value : Binary64) : Tree :=
  if value.isFinite then
    match Decimal.ofPlain? value.toChars with
    | some found => decimal found
    | none => float value
  else float value

/--
The number written as `text` in JSON: an integer, else a decimal, else a decimal with an exponent, else
the nearest binary number. What is too large even for that is not a number.
-/
def ofNumberChars (text : List Char) : Tree :=
  match wordOfChars? text with
  | some value => integer value
  | none =>
    match (Decimal.ofPlain? text).orElse fun _ => Decimal.ofScientific? text with
    | some value => decimal value
    | none =>
      let value := Binary64.ofChars text
      ofBinary64 (if value.isFinite then value else .nan)

def asDecimal? : Tree → Option Decimal
  | integer value => some (Decimal.ofInt value)
  | decimal value => some value
  | _ => none

end Tree

end TreeQuery
