import TreeQuery.Proofs.Stream.ByteScan

/-!
# A cursor over bytes that checks itself

The cursor once more, as an index into the bytes of the text. It breaks off as soon as it would take a slice that does
not lie in the text or is not a text, let a counter fall below zero, or go on with a loop that has had a round for each
byte left and one more.
-/

namespace TreeQuery

open Text

/-- A place in the bytes of a text, the nesting there, and the nesting at which a deep search began. -/
structure ByteCursor where
  bytes : List UInt8
  place : Nat
  depth : Nat
  deepScope : Option Nat

namespace ByteCursor

def ofString (text : String) : ByteCursor :=
  ⟨bytesOf text.toList, passWhile isBlank (bytesOf text.toList) 0, 0, none⟩

def token (cursor : ByteCursor) : Token :=
  match byteCharAt? cursor.bytes cursor.place with
  | none => .finish
  | some c => Token.ofChar c

def rounds (cursor : ByteCursor) : Nat := cursor.bytes.length - cursor.place + 1

end ByteCursor

/-- A movement over bytes fails like any other one, or breaks off. -/
abbrev ByteMovement := EStateM (Breach ⊕ Fault) ByteCursor

namespace ByteMovement

variable {α : Type}

def token : ByteMovement Token := return (← get).token

def rounds : ByteMovement Nat := return (← get).rounds

def breakOff (breach : Breach) : ByteMovement α := throw (.inl breach)

def refuse (fault : Fault) : ByteMovement α := throw (.inr fault)

def fail (cause : CursorFault) : ByteMovement α := do refuse (.cursor cause (← get).place)

def moveTo (place : Nat) : ByteMovement Unit :=
  modify fun cursor => { cursor with place := passWhile isBlank cursor.bytes place }

def slice (start stop : Nat) : ByteMovement (List UInt8) := do
  let bytes := (← get).bytes
  if start ≤ stop ∧ stop ≤ bytes.length then return (bytes.drop start).take (stop - start)
  breakOff .outOfRange

def decode (bytes : List UInt8) : ByteMovement (List Char) :=
  match bytes.toByteArray.utf8Decode? with
  | some text => return text.toList
  | none => breakOff .notText

def before (place : Nat) : ByteMovement Nat :=
  if place = 0 then breakOff .underflow else return place - 1

def stringEnd (start : Nat) : ByteMovement Nat := do
  match quoteEnd? (← get).bytes (start + 1) with
  | some stop => return stop
  | none => fail .unterminatedString

def scalarEnd (start : Nat) : ByteMovement Nat := return passWhile (!endsScalar ·) (← get).bytes start

def bracketEnd (start : Nat) : ByteMovement Nat := do
  match containerEnd (← get).bytes 0 start with
  | .ok stop => return stop
  | .error (.inl breach) => breakOff breach
  | .error (.inr cause) => fail cause

def valueEnd : ByteMovement Nat := do
  let cursor ← get
  match cursor.token with
  | .string => stringEnd cursor.place
  | .beginObject | .beginArray => bracketEnd cursor.place
  | .number | .true | .false | .null => scalarEnd cursor.place
  | _ => fail .expectedValue

def skipValue : ByteMovement Unit := do
  let stop ← valueEnd
  moveTo stop

def readValue : ByteMovement Tree := do
  let start := (← get).place
  let stop ← valueEnd
  let text ← decode (← slice start stop)
  match Json.parseChars text with
  | some tree =>
    moveTo stop
    return tree
  | none => refuse .malformedJson

def advance : ByteMovement Unit := do
  let cursor ← get
  match cursor.token with
  | .finish => fail .unexpectedEnd
  | .invalid => fail .unexpectedByte
  | .beginObject | .beginArray =>
    modify fun cursor => { cursor with depth := cursor.depth + 1 }
    moveTo (cursor.place + 1)
  | .endObject | .endArray =>
    modify fun cursor => { cursor with depth := cursor.depth - 1 }
    moveTo (cursor.place + 1)
  | .comma | .colon => moveTo (cursor.place + 1)
  | .string =>
    let stop ← stringEnd cursor.place
    moveTo stop
  | .number | .true | .false | .null =>
    let stop ← scalarEnd cursor.place
    moveTo stop

def content (start stop : Nat) : ByteMovement String := do
  let raw ← slice start stop
  if raw.contains 0x5C then
    match decodeQuoted ((← decode raw).drop 1) with
    | some found => return found
    | none => refuse .malformedJson
  else
    let text ← decode (← slice (start + 1) (← before stop))
    return String.ofList text

def readString : ByteMovement String := do
  let start := (← get).place
  let stop ← stringEnd start
  let found ← content start stop
  moveTo stop
  return found

def eat (separator : Token) : ByteMovement Bool := do
  if (← token) = separator then
    advance
    return true
  return false

def found : ByteMovement Found := do
  match ← token with
  | .beginObject => return .object
  | .beginArray => return .array
  | _ => return .value

def seekEntry (name : String) (hash : UInt64) : Nat → ByteMovement Found
  | 0 => breakOff .endless
  | rounds + 1 => do
    match ← token with
    | .endObject =>
      advance
      return .nothing
    | .string =>
      let key ← readString
      if !(← eat .colon) then fail .expectedColon
      if Movement.isKey name hash key then found
      else
        skipValue
        let _ ← eat .comma
        seekEntry name hash rounds
    | _ => fail .expectedKey

/-- Moves from an object to the value of a field; without such a field the object is passed. -/
def seekField (name : String) (hash : UInt64) : ByteMovement Found := do
  if (← token) ≠ .beginObject then
    skipValue
    return .nothing
  advance
  seekEntry name hash (← rounds)

def seekBelow (name : String) (hash : UInt64) (scope : Nat) : Nat → ByteMovement Found
  | 0 => breakOff .endless
  | rounds + 1 => do
    match ← token with
    | .finish =>
      modify fun cursor => { cursor with deepScope := none }
      return .nothing
    | .endObject | .endArray =>
      advance
      if (← get).depth = scope then
        modify fun cursor => { cursor with deepScope := none }
        return .nothing
      seekBelow name hash scope rounds
    | .string =>
      let key ← readString
      let colon ← eat .colon
      if colon && Movement.isKey name hash key then found
      else seekBelow name hash scope rounds
    | _ =>
      advance
      seekBelow name hash scope rounds

/-- Moves to the next value of a field at any depth within the value where the search began. -/
def seekDeep (name : String) (hash : UInt64) : ByteMovement Found := do
  let cursor ← get
  match cursor.deepScope with
  | some scope => seekBelow name hash scope cursor.rounds
  | none =>
    if cursor.token ≠ .beginObject ∧ cursor.token ≠ .beginArray then
      skipValue
      return .nothing
    set { cursor with deepScope := some cursor.depth }
    seekBelow name hash cursor.depth cursor.rounds

def seekItem : Nat → ByteMovement Bool
  | 0 => return !(← eat .endArray)
  | index + 1 => do
    if ← eat .endArray then return false
    skipValue
    let _ ← eat .comma
    seekItem index

def seekIndex (index : Nat) : ByteMovement Bool := do
  if (← token) ≠ .beginArray then
    skipValue
    return false
  advance
  seekItem index

def leaveTo (target : Nat) : Nat → ByteMovement Unit
  | 0 => breakOff .endless
  | rounds + 1 => do
    match ← token with
    | .endObject | .endArray =>
      advance
      if (← get).depth = target then return
      leaveTo target rounds
    | .beginObject | .beginArray | .string =>
      skipValue
      leaveTo target rounds
    | _ =>
      advance
      leaveTo target rounds

def exitContainer : ByteMovement Unit := do
  let cursor ← get
  leaveTo (cursor.depth - 1) cursor.rounds

/-! ### Extraction -/

def mapProperty (dropNulls : Bool) (name : HashedName) : Nat → ByteMovement (List Tree)
  | 0 => breakOff .endless
  | rounds + 1 => do
    match ← token with
    | .endArray =>
      advance
      return []
    | .comma =>
      advance
      mapProperty dropNulls name rounds
    | .beginObject =>
      let value ← match ← seekField name.text name.hash with
        | .nothing => pure Tree.null
        | _ => do
          let value ← readValue
          exitContainer
          pure value
      return value.spliced dropNulls ++ (← mapProperty dropNulls name rounds)
    | _ =>
      let item ← readValue
      return (item.property dropNulls name).spliced dropNulls ++ (← mapProperty dropNulls name rounds)

def deepValues (name : HashedName) : Nat → ByteMovement (List Tree)
  | 0 => breakOff .endless
  | rounds + 1 => do
    match ← seekDeep name.text name.hash with
    | .nothing => return []
    | _ =>
      let value ← readValue
      return value.matchItems ++ (← deepValues name rounds)

def follow (dropNulls : Bool) (segment : Segment) : ByteMovement Stop := do
  match segment with
  | .property name false =>
    match ← token with
    | .beginObject =>
      match ← seekField name.text name.hash with
      | .nothing => return .built .null
      | _ => return .here
    | .beginArray =>
      advance
      return .built (.array (← mapProperty dropNulls name (← rounds)))
    | _ => return .built ((← readValue).property dropNulls name)
  | .property name true => return .built (.array (← deepValues name (← rounds)))
  | .index position =>
    if (← token) ≠ .beginArray then return .built ((← readValue).atIndex position)
    else if position < 0 then refuse (.evaluation .negativeIndex)
    else if ← seekIndex position.toNat then return .here
    else return .built .null
  | segment => refuse (.evaluation (.notStreamed segment))

def extractAll (dropNulls : Bool) : List Segment → ByteMovement Tree
  | [] => readValue
  | segment :: segments => do
    if segment.isStreamed then
      match ← follow dropNulls segment with
      | .here => extractAll dropNulls segments
      | .built tree => finish dropNulls segments tree
    else finish dropNulls (segment :: segments) (← readValue)
where
  finish (dropNulls : Bool) (segments : List Segment) (tree : Tree) : ByteMovement Tree :=
    match Segment.applyAll tree dropNulls segments tree with
    | .ok found => pure found
    | .error fault => refuse fault

end ByteMovement

def Path.extractBytes (path : Path) : ByteMovement Tree := do
  if path.needsWhole then
    match path.eval (← ByteMovement.readValue) with
    | .ok found => return found
    | .error fault => ByteMovement.refuse fault
  else ByteMovement.extractAll path.dropNulls path.segments

end TreeQuery
