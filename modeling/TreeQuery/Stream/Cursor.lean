import TreeQuery.Path.Scanner

/-!
A cursor that moves forward over JSON text. It counts brackets and minds quotes, but only what is read as
a value is checked to be JSON.
-/

namespace TreeQuery

inductive Token
  | beginObject
  | endObject
  | beginArray
  | endArray
  | string
  | number
  | true
  | false
  | null
  | comma
  | colon
  | finish
  | invalid
deriving DecidableEq, Repr, Inhabited

def Token.ofChar (c : Char) : Token :=
  if c = '\x7b' then beginObject
  else if c = '\x7d' then endObject
  else if c = '[' then beginArray
  else if c = ']' then endArray
  else if c = '"' then string
  else if c = ',' then comma
  else if c = ':' then colon
  else if c = 't' then true
  else if c = 'f' then false
  else if c = 'n' then null
  else if c = '-' || c.isDigit then number
  else invalid

inductive Found
  | nothing
  | value
  | object
  | array
deriving DecidableEq, Repr, Inhabited

/-- What is left of a text of `length` bytes, the nesting at that place, and the nesting at which a deep
search began. -/
structure Cursor where
  length : Nat
  rest : List Char
  depth : Nat
  deepScope : Option Nat
deriving Inhabited

namespace Cursor

def ofString (text : String) : Cursor :=
  ⟨byteLength text.toList, Text.skipBlank text.toList, 0, none⟩

def position (cursor : Cursor) : Nat := cursor.length - byteLength cursor.rest

def token (cursor : Cursor) : Token :=
  match cursor.rest with
  | [] => .finish
  | c :: _ => Token.ofChar c

end Cursor

/-- The characters of a string with its closing quote, and what follows; a backslash takes the next
character with it. -/
def splitQuoted : List Char → Option (List Char × List Char)
  | [] => none
  | '\\' :: c :: rest => (splitQuoted rest).map fun (text, rest) => ('\\' :: c :: text, rest)
  | c :: rest =>
    if c = '"' then some ([c], rest)
    else if c = '\\' then none
    else (splitQuoted rest).map fun (text, rest) => (c :: text, rest)

def endsScalar (c : Char) : Bool := c == ',' || c == ':' || c == ']' || c == '\x7d' || Text.isBlank c

def opensContainer (c : Char) : Bool := c == '\x7b' || c == '['

def closesContainer (c : Char) : Bool := c == '\x7d' || c == ']'

/-- The text up to the bracket that closes `nesting` open ones, and what follows it. -/
def splitContainer : Nat → Nat → List Char → Except CursorFault (List Char × List Char)
  | 0, _, _ => .error .unterminatedContainer
  | _, _, [] => .error .unterminatedContainer
  | fuel + 1, nesting, c :: rest =>
    if c = '"' then
      match splitQuoted rest with
      | none => .error .unterminatedString
      | some (text, rest) => (splitContainer fuel nesting rest).map fun (more, rest) => (c :: text ++ more, rest)
    else
      let go (nesting : Nat) : Except CursorFault (List Char × List Char) :=
        (splitContainer fuel nesting rest).map fun (text, rest) => (c :: text, rest)
      if opensContainer c then go (nesting + 1)
      else if closesContainer c then if nesting ≤ 1 then .ok ([c], rest) else go (nesting - 1)
      else go nesting

def splitValue (text : List Char) : Except CursorFault (List Char × List Char) :=
  match text with
  | [] => .error .expectedValue
  | c :: rest =>
    match Token.ofChar c with
    | .string =>
      match splitQuoted rest with
      | some (text, rest) => .ok (c :: text, rest)
      | none => .error .unterminatedString
    | .beginObject | .beginArray => splitContainer (text.length + 1) 0 text
    | .number | .true | .false | .null => .ok (text.takeWhile (!endsScalar ·), text.dropWhile (!endsScalar ·))
    | _ => .error .expectedValue

/-- The content of a string given with its closing quote. Only one with escapes has to be strict JSON. -/
def decodeQuoted (text : List Char) : Option String :=
  if text.contains '\\' then
    match Json.readString text with
    | some (content, []) => some (String.ofList content)
    | _ => none
  else some (String.ofList text.dropLast)

/-- A movement may fail, and then the cursor stays where it got to. -/
abbrev Movement := EStateM Fault Cursor

namespace Movement

def token : Movement Token := return (← get).token

def rest : Movement (List Char) := return (← get).rest

def fail {α : Type} (cause : CursorFault) : Movement α := do throw (.cursor cause (← get).position)

def moveTo (rest : List Char) : Movement Unit := modify fun cursor => { cursor with rest := Text.skipBlank rest }

def valueText : Movement (List Char × List Char) := do
  match splitValue (← rest) with
  | .ok found => return found
  | .error cause => fail cause

def skipValue : Movement Unit := do
  let (_, rest) ← valueText
  moveTo rest

def readValue : Movement Tree := do
  let (text, rest) ← valueText
  match Json.parseChars text with
  | some tree =>
    moveTo rest
    return tree
  | none => throw .malformedJson

def advance : Movement Unit := do
  match ← token with
  | .finish => fail .unexpectedEnd
  | .invalid => fail .unexpectedByte
  | .beginObject | .beginArray =>
    modify fun cursor => { cursor with depth := cursor.depth + 1 }
    moveTo ((← rest).drop 1)
  | .endObject | .endArray =>
    modify fun cursor => { cursor with depth := cursor.depth - 1 }
    moveTo ((← rest).drop 1)
  | .comma | .colon => moveTo ((← rest).drop 1)
  | .string | .number | .true | .false | .null => skipValue

def readString : Movement String := do
  match splitQuoted ((← rest).drop 1) with
  | none => fail .unterminatedString
  | some (text, rest) =>
    match decodeQuoted text with
    | some found =>
      moveTo rest
      return found
    | none => throw .malformedJson

def eat (separator : Token) : Movement Bool := do
  if (← token) = separator then
    advance
    return true
  return false

def found : Movement Found := do
  match ← token with
  | .beginObject => return .object
  | .beginArray => return .array
  | _ => return .value

def isKey (name : String) (hash : UInt64) (key : String) : Bool := hashName key == hash && key == name

def seekEntry (name : String) (hash : UInt64) : Nat → Movement Found
  | 0 => fail .unexpectedEnd
  | fuel + 1 => do
    match ← token with
    | .endObject =>
      advance
      return .nothing
    | .string =>
      let key ← readString
      if !(← eat .colon) then fail .expectedColon
      if isKey name hash key then found
      else
        skipValue
        let _ ← eat .comma
        seekEntry name hash fuel
    | _ => fail .expectedKey

/-- Moves from an object to the value of a field; without such a field the object is passed. -/
def seekField (name : String) (hash : UInt64) : Movement Found := do
  if (← token) ≠ .beginObject then
    skipValue
    return .nothing
  advance
  seekEntry name hash ((← rest).length + 1)

def seekBelow (name : String) (hash : UInt64) (scope : Nat) : Nat → Movement Found
  | 0 => fail .unexpectedEnd
  | fuel + 1 => do
    match ← token with
    | .finish =>
      modify fun cursor => { cursor with deepScope := none }
      return .nothing
    | .endObject | .endArray =>
      advance
      if (← get).depth = scope then
        modify fun cursor => { cursor with deepScope := none }
        return .nothing
      seekBelow name hash scope fuel
    | .string =>
      let key ← readString
      let colon ← eat .colon
      if colon && isKey name hash key then found
      else seekBelow name hash scope fuel
    | _ =>
      advance
      seekBelow name hash scope fuel

/-- Moves to the next value of a field at any depth within the value where the search began. -/
def seekDeep (name : String) (hash : UInt64) : Movement Found := do
  let cursor ← get
  match cursor.deepScope with
  | some scope => seekBelow name hash scope (cursor.rest.length + 1)
  | none =>
    if cursor.token ≠ .beginObject ∧ cursor.token ≠ .beginArray then
      skipValue
      return .nothing
    set { cursor with deepScope := some cursor.depth }
    seekBelow name hash cursor.depth (cursor.rest.length + 1)

def eatArrayEnd : Movement Bool := eat .endArray

/-- Passes `index` items; the array may end before. -/
def seekItem : Nat → Movement Bool
  | 0 => return !(← eatArrayEnd)
  | index + 1 => do
    if ← eatArrayEnd then return false
    skipValue
    let _ ← eat .comma
    seekItem index

def seekIndex (index : Nat) : Movement Bool := do
  if (← token) ≠ .beginArray then
    skipValue
    return false
  advance
  seekItem index

def leaveTo (target : Nat) : Nat → Movement Unit
  | 0 => fail .unexpectedEnd
  | fuel + 1 => do
    match ← token with
    | .endObject | .endArray =>
      advance
      if (← get).depth = target then return
      leaveTo target fuel
    | .beginObject | .beginArray | .string =>
      skipValue
      leaveTo target fuel
    | _ =>
      advance
      leaveTo target fuel

def exitContainer : Movement Unit := do
  let cursor ← get
  leaveTo (cursor.depth - 1) (cursor.rest.length + 1)

end Movement

end TreeQuery
