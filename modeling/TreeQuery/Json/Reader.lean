import TreeQuery.Text.Blank
import TreeQuery.Tree.Basic

/-!
Strict JSON: one value with white space around it, nested at most 127 deep. A text is read first as it is
written, with all members of its objects, and then resolved: a repeated key keeps its first place and takes its
last value, and an object whose first key is the one that stands for numbers is a number.
-/

namespace TreeQuery.Json

open Text

/-- The deepest nesting of arrays and objects that is read. -/
def maxDepth : Nat := 127

def hexValue? (c : Char) : Option Nat :=
  if c.isDigit then some (c.toNat - '0'.toNat)
  else if 'a' ≤ c && c ≤ 'f' then some (c.toNat - 'a'.toNat + 10)
  else if 'A' ≤ c && c ≤ 'F' then some (c.toNat - 'A'.toNat + 10)
  else none

def hexCode? (a b c d : Char) : Option Nat := do
  return (((← hexValue? a) * 16 + (← hexValue? b)) * 16 + (← hexValue? c)) * 16 + (← hexValue? d)

def unescape? (c : Char) : Option Char :=
  if c = '"' || c = '\\' || c = '/' then some c
  else if c = 'b' then some '\x08'
  else if c = 'f' then some '\x0c'
  else if c = 'n' then some '\n'
  else if c = 'r' then some '\r'
  else if c = 't' then some '\t'
  else none

def isHighSurrogate (code : Nat) : Bool := 0xD800 ≤ code && code < 0xDC00

def isLowSurrogate (code : Nat) : Bool := 0xDC00 ≤ code && code < 0xE000

def joinSurrogates (high low : Nat) : Char := Char.ofNat (0x10000 + (high - 0xD800) * 0x400 + (low - 0xDC00))

/-- The characters of a string up to its closing quote, and what follows it. -/
def readString : List Char → Option (List Char × List Char)
  | [] => none
  | '\\' :: 'u' :: a :: b :: c :: d :: rest => do
    let code ← hexCode? a b c d
    if isHighSurrogate code then
      match rest with
      | '\\' :: 'u' :: e :: f :: g :: h :: rest =>
        let low ← hexCode? e f g h
        if isLowSurrogate low then
          let (text, rest) ← readString rest
          return (joinSurrogates code low :: text, rest)
        else none
      | _ => none
    else if isLowSurrogate code then none
    else
      let (text, rest) ← readString rest
      return (Char.ofNat code :: text, rest)
  | '\\' :: c :: rest => do
    let found ← unescape? c
    let (text, rest) ← readString rest
    return (found :: text, rest)
  | c :: rest => do
    if c = '"' then return ([], rest)
    if c = '\\' || c.toNat < 0x20 then none
    let (text, rest) ← readString rest
    return (c :: text, rest)

/-- A non-empty run of digits and what follows it. -/
def readDigits (text : List Char) : Option (List Char × List Char) :=
  let digits := text.takeWhile Char.isDigit
  if digits.isEmpty then none else some (digits, text.dropWhile Char.isDigit)

def readWhole : List Char → Option (List Char × List Char)
  | '0' :: rest => if (rest.head?.map Char.isDigit).getD false then none else some (['0'], rest)
  | text => readDigits text

def readFraction : List Char → Option (List Char × List Char)
  | '.' :: rest => (readDigits rest).map fun (digits, rest) => ('.' :: digits, rest)
  | text => some ([], text)

def readExponent : List Char → Option (List Char × List Char)
  | c :: rest =>
    if Decimal.isExponentMark c then
      match rest with
      | '+' :: rest => (readDigits rest).map fun (digits, rest) => (c :: '+' :: digits, rest)
      | '-' :: rest => (readDigits rest).map fun (digits, rest) => (c :: '-' :: digits, rest)
      | rest => (readDigits rest).map fun (digits, rest) => (c :: digits, rest)
    else some ([], c :: rest)
  | [] => some ([], [])

def readUnsigned (text : List Char) : Option (List Char × List Char) := do
  let (whole, rest) ← readWhole text
  let (fraction, rest) ← readFraction rest
  let (exponent, rest) ← readExponent rest
  return (whole ++ fraction ++ exponent, rest)

def readNumber : List Char → Option (List Char × List Char)
  | '-' :: rest => (readUnsigned rest).map fun (text, rest) => ('-' :: text, rest)
  | text => readUnsigned text

def dropWord? : List Char → List Char → Option (List Char)
  | [], text => some text
  | w :: word, c :: text => if w = c then dropWord? word text else none
  | _ :: _, [] => none

def readScalar : List Char → Option (Tree × List Char)
  | 'n' :: rest => (dropWord? "ull".toList rest).map fun rest => (.null, rest)
  | 't' :: rest => (dropWord? "rue".toList rest).map fun rest => (.bool true, rest)
  | 'f' :: rest => (dropWord? "alse".toList rest).map fun rest => (.bool false, rest)
  | '"' :: rest => (readString rest).map fun (text, rest) => (.string (String.ofList text), rest)
  | text => (readNumber text).map fun (number, rest) => (Tree.ofNumberChars number, rest)

/-- One or more items with commas between them, up to `close`. The characters of the first list bound their
number: the text at the start serves, since every item but the last takes two of its own. -/
def readSeparated {α : Type} (item : List Char → Option (α × List Char)) (close : Char) :
    List Char → List Char → Option (List α × List Char)
  | [], _ => none
  | _ :: bound, text => do
    let (first, rest) ← item text
    match skipBlank rest with
    | ',' :: rest =>
      let (others, rest) ← readSeparated item close bound rest
      return (first :: others, rest)
    | c :: rest => if c = close then return ([first], rest) else none
    | [] => none

def readItems {α : Type} (item : List Char → Option (α × List Char)) (close : Char) (text : List Char) :
    Option (List α × List Char) :=
  match skipBlank text with
  | c :: rest => if c = close then some ([], rest) else readSeparated item close (c :: rest) (c :: rest)
  | [] => none

def readMember (value : List Char → Option (Tree × List Char)) (text : List Char) :
    Option ((String × Tree) × List Char) :=
  match skipBlank text with
  | '"' :: rest => do
    let (name, rest) ← readString rest
    match skipBlank rest with
    | ':' :: rest =>
      let (found, rest) ← value rest
      return ((String.ofList name, found), rest)
    | _ => none
  | _ => none

/-- A value with at most `depth` arrays and objects open at once, and what follows it. -/
def readWritten : Nat → List Char → Option (Tree × List Char)
  | 0, text => readScalar (skipBlank text)
  | depth + 1, text =>
    match skipBlank text with
    | '[' :: rest => (readItems (readWritten depth) ']' rest).map fun (items, rest) => (.array items, rest)
    | '\x7b' :: rest =>
      (readItems (readMember (readWritten depth)) '\x7d' rest).map fun (members, rest) => (.object members, rest)
    | text => readScalar text

def parseWritten (text : List Char) : Option Tree := do
  let (tree, rest) ← readWritten maxDepth text
  if (skipBlank rest).isEmpty then return tree else none

/-- As the first key of an object it announces the text of a number. -/
def numberKey : String := "$serde_json::private::Number"

def numberOfText? (text : String) : Option Tree :=
  match readNumber text.toList with
  | some (number, []) => some (Tree.ofNumberChars number)
  | _ => none

def announcesNumber (members : List (String × Tree)) : Bool := members.head?.any (·.1 == numberKey)

/-- The number that is announced; nothing may follow it. -/
def numberOfMembers? : List (String × Tree) → Option Tree
  | [(_, .string text)] => numberOfText? text
  | _ => none

def ofMembers? (members : List (String × Tree)) : Option Tree :=
  if announcesNumber members then numberOfMembers? members else some (.object (Entries.ofList members))

mutual

/-- What a written tree stands for. -/
def resolve? : Tree → Option Tree
  | .array items => (resolveItems? items).map Tree.array
  | .object members => (resolveMembers? members).bind ofMembers?
  | tree => some tree

def resolveItems? : List Tree → Option (List Tree)
  | [] => some []
  | item :: items => do return (← resolve? item) :: (← resolveItems? items)

def resolveMembers? : List (String × Tree) → Option (List (String × Tree))
  | [] => some []
  | (key, value) :: members => do return (key, ← resolve? value) :: (← resolveMembers? members)

end

def parseChars (text : List Char) : Option Tree := (parseWritten text).bind resolve?

end TreeQuery.Json

def TreeQuery.Tree.parse (text : String) : Option TreeQuery.Tree := TreeQuery.Json.parseChars text.toList
