import TreeQuery.Tree.Basic

/-!
JSON text of trees: compact, without any space, and pretty, with an indent of two spaces. Objects and
records are written alike, in insertion order.
-/

namespace TreeQuery.Json

def hexDigits (code width : Nat) : List Char :=
  let digits := Nat.toDigits 16 code
  List.replicate (width - digits.length) '0' ++ digits

/-- Quotes, backslashes and control characters are escaped; all else stands for itself. -/
def escapeChar (c : Char) : List Char :=
  if c = '"' then ['\\', '"']
  else if c = '\\' then ['\\', '\\']
  else if c = '\x08' then ['\\', 'b']
  else if c = '\x0c' then ['\\', 'f']
  else if c = '\n' then ['\\', 'n']
  else if c = '\r' then ['\\', 'r']
  else if c = '\t' then ['\\', 't']
  else if c.toNat < 0x20 then '\\' :: 'u' :: hexDigits c.toNat 4
  else [c]

def quote (text : String) : List Char := '"' :: text.toList.flatMap escapeChar ++ ['"']

/-- A number that is neither finite nor a decimal has no JSON form but null. -/
def floatChars : Binary64 → List Char
  | .finite negative significand exponent => Binary64.toScientific negative significand exponent
  | _ => "null".toList

def integerChars (value : Int) : List Char := (Decimal.ofInt value).toChars

mutual

def compactChars : Tree → List Char
  | .null => "null".toList
  | .bool value => (if value then "true" else "false").toList
  | .integer value => integerChars value
  | .decimal value => value.toChars
  | .float value => floatChars value
  | .string text => quote text
  | .array items => '[' :: compactItems items
  | .object entries => '\x7b' :: compactEntries entries
  | .record _ entries => '\x7b' :: compactEntries entries

/-- The items that follow the opening bracket, and the closing one. -/
def compactItems : List Tree → List Char
  | [] => [']']
  | [item] => compactChars item ++ [']']
  | item :: items => compactChars item ++ ',' :: compactItems items

def compactEntries : List (String × Tree) → List Char
  | [] => ['\x7d']
  | [(name, value)] => quote name ++ ':' :: compactChars value ++ ['\x7d']
  | (name, value) :: entries => quote name ++ ':' :: compactChars value ++ ',' :: compactEntries entries

end

def newLine (depth : Nat) : List Char := '\n' :: List.replicate (2 * depth) ' '

mutual

def prettyChars (depth : Nat) : Tree → List Char
  | .array [] => ['[', ']']
  | .array items => '[' :: prettyItems depth items
  | .object [] | .record _ [] => ['\x7b', '\x7d']
  | .object entries => '\x7b' :: prettyEntries depth entries
  | .record _ entries => '\x7b' :: prettyEntries depth entries
  | .null => "null".toList
  | .bool value => (if value then "true" else "false").toList
  | .integer value => integerChars value
  | .decimal value => value.toChars
  | .float value => floatChars value
  | .string text => quote text

def prettyItems (depth : Nat) : List Tree → List Char
  | [] => [']']
  | [item] => newLine (depth + 1) ++ prettyChars (depth + 1) item ++ newLine depth ++ [']']
  | item :: items => newLine (depth + 1) ++ prettyChars (depth + 1) item ++ ',' :: prettyItems depth items

def prettyEntries (depth : Nat) : List (String × Tree) → List Char
  | [] => ['\x7d']
  | [(name, value)] =>
    newLine (depth + 1) ++ quote name ++ ':' :: ' ' :: prettyChars (depth + 1) value ++ newLine depth ++ ['\x7d']
  | (name, value) :: entries =>
    newLine (depth + 1) ++ quote name ++ ':' :: ' ' :: prettyChars (depth + 1) value ++
      ',' :: prettyEntries depth entries

end

end TreeQuery.Json

namespace TreeQuery.Tree

def toJson (tree : Tree) : String := String.ofList (Json.compactChars tree)

def toPrettyJson (tree : Tree) : String := String.ofList (Json.prettyChars 0 tree)

end TreeQuery.Tree
