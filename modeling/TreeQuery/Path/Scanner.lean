import TreeQuery.Fault
import TreeQuery.Json.Reader

/-!
Reading the words of a path: names, quoted strings, numbers, regular expressions, and raw text up to a
closing bracket. What a word means depends on where it stands, so words are read on demand. Positions are
bytes from the start of the text.
-/

namespace TreeQuery

def byteLength (text : List Char) : Nat := text.foldr (fun c total => c.utf8Size + total) 0

/-- What is left of a text of `length` bytes; `inside` bytes of its first character are passed already. -/
structure Scanner where
  length : Nat
  rest : List Char
  inside : Nat
deriving Inhabited

namespace Scanner

def ofString (text : String) : Scanner := ⟨byteLength text.toList, text.toList, 0⟩

def position (s : Scanner) : Nat := s.length - byteLength s.rest + s.inside

def atEnd (s : Scanner) : Bool := s.rest.isEmpty

def moveTo (s : Scanner) (rest : List Char) : Scanner := { s with rest, inside := 0 }

def bytesOf (c : Char) : List UInt8 := String.utf8EncodeChar c

def bytes (s : Scanner) : List UInt8 := (s.rest.flatMap bytesOf).drop s.inside

def byteAt? (s : Scanner) (offset : Nat) : Option UInt8 := s.bytes[offset]?

/-- Passes bytes, which may end within a character. -/
def skipBytes (length inside : Nat) : Nat → List Char → Scanner
  | _, [] => ⟨length, [], 0⟩
  | count, c :: rest =>
    if inside + count < c.utf8Size then ⟨length, c :: rest, inside + count⟩
    else skipBytes length 0 (count - (c.utf8Size - inside)) rest

def advance (s : Scanner) (count : Nat) : Scanner := skipBytes s.length s.inside count s.rest

def byteChar (byte : UInt8) : Char := Char.ofNat byte.toNat

def foundChar? (s : Scanner) : Option Char := (s.byteAt? 0).map byteChar

end Scanner

/-- Letters, digits, underscore, dollar and everything beyond ASCII. -/
def isNameChar (c : Char) : Bool := c.isAlphanum || c == '_' || c == '$' || 0x80 ≤ c.toNat

/-- A name and what follows it; a backslash makes the next character part of the name, and one that
nothing follows leaves no name. -/
def splitName : List Char → Option (List Char) × List Char
  | [] => (some [], [])
  | ['\\'] => (none, [])
  | '\\' :: c :: rest => ((splitName rest).1.map (c :: ·), (splitName rest).2)
  | c :: rest =>
    if isNameChar c then ((splitName rest).1.map (c :: ·), (splitName rest).2) else (some [], c :: rest)

inductive StringFault
  | unterminated
  /-- An escape whose digits start at `digits`; reading stops at `rest`. -/
  | escape (cause : PathFault) (digits rest : List Char)

/-- Whether the first four bytes are whole characters. -/
def hasFourBytes : Nat → List Char → Bool
  | 0, _ => true
  | _, [] => false
  | needed + 1, c :: rest => decide (c.utf8Size ≤ needed + 1) && hasFourBytes (needed + 1 - c.utf8Size) rest

/-- Four digits, of which the first may be a plus sign. -/
def escapeCode? (a b c d : Char) : Option Nat :=
  if a = '+' then Json.hexCode? '0' b c d else Json.hexCode? a b c d

def escapedChar (c : Char) : Char :=
  if c = 'n' then '\n'
  else if c = 't' then '\t'
  else if c = 'r' then '\r'
  else if c = 'b' then '\x08'
  else if c = 'f' then '\x0c'
  else c

def escapeFault (digits : List Char) : StringFault :=
  .escape (if hasFourBytes 4 digits then .invalidEscape else .truncatedEscape) digits digits

def splitString (quote : Char) : List Char → Except StringFault (List Char × List Char)
  | [] => .error .unterminated
  | '\\' :: 'u' :: a :: b :: c :: d :: rest =>
    match escapeCode? a b c d with
    | some code =>
      if code.isValidChar then
        (splitString quote rest).map fun (text, rest) => (Char.ofNat code :: text, rest)
      else .error (.escape .invalidEscape (a :: b :: c :: d :: rest) rest)
    | none => .error (escapeFault (a :: b :: c :: d :: rest))
  | '\\' :: 'u' :: rest => .error (escapeFault rest)
  | '\\' :: c :: rest => (splitString quote rest).map fun (text, rest) => (escapedChar c :: text, rest)
  | c :: rest =>
    if c = quote then .ok ([], rest)
    else if c = '\\' then .error .unterminated
    else (splitString quote rest).map fun (text, rest) => (c :: text, rest)

/-- The text of a number in parts: sign, digits, fraction with its point, exponent with its mark. -/
structure NumberText where
  sign : List Char
  digits : List Char
  fraction : List Char
  exponent : List Char
  rest : List Char

def splitSign : List Char → List Char × List Char
  | '-' :: rest => (['-'], rest)
  | '+' :: rest => (['+'], rest)
  | text => ([], text)

/-- A point counts only if a digit follows it. -/
def splitFraction : List Char → List Char × List Char
  | '.' :: c :: rest =>
    if c.isDigit then ('.' :: (c :: rest).takeWhile Char.isDigit, (c :: rest).dropWhile Char.isDigit)
    else ([], '.' :: c :: rest)
  | text => ([], text)

/-- An exponent mark counts only if a digit follows it, or a sign and a digit. -/
def splitExponent : List Char → List Char × List Char
  | mark :: c :: rest =>
    let signed := (c == '-' || c == '+') && (rest.head?.map Char.isDigit).getD false
    if Decimal.isExponentMark mark && (c.isDigit || signed) then
      (mark :: c :: rest.takeWhile Char.isDigit, rest.dropWhile Char.isDigit)
    else ([], mark :: c :: rest)
  | text => ([], text)

def splitNumber (text : List Char) : NumberText :=
  let (sign, rest) := splitSign text
  let digits := rest.takeWhile Char.isDigit
  let (fraction, rest) := splitFraction (rest.dropWhile Char.isDigit)
  let (exponent, rest) := splitExponent rest
  ⟨sign, digits, fraction, exponent, rest⟩

def NumberText.literal (n : NumberText) : List Char :=
  (if n.sign = ['-'] then n.sign else []) ++ n.digits ++ n.fraction ++ n.exponent

def dropPlus : List Char → List Char
  | '+' :: text => text
  | text => text

/-- Integers that fit 64 bits are integers; all other numbers are decimals or out of range. -/
def NumberText.value? (n : NumberText) : Option Literal :=
  if !n.exponent.isEmpty then (Decimal.ofScientific? n.literal).map Literal.decimal
  else
    let integer := if n.fraction.isEmpty then wordOfChars? n.literal else none
    match integer with
    | some value => some (.integer value)
    | none => (Decimal.ofPlain? n.literal).map Literal.decimal

/-- The source of a regular expression up to its closing slash; an escaped slash stands for itself. -/
def splitRegex : List Char → Option (List Char × List Char)
  | [] => none
  | '\\' :: c :: rest =>
    (splitRegex rest).map fun (source, rest) => (if c = '/' then c :: source else '\\' :: c :: source, rest)
  | c :: rest =>
    if c = '/' then some ([], rest) else (splitRegex rest).map fun (source, rest) => (c :: source, rest)

def isQuote (c : Char) : Bool := c == '\'' || c == '"'

def opensBracket (c : Char) : Bool := c == '[' || c == '('

def closesBracket (c : Char) : Bool := c == ']' || c == ')'

/-- What stands before a character that ends a piece of raw text, and what follows. Nothing ends it within quotes or
brackets, and the end of the text always does. -/
def splitOutside (ends : Char → Bool) : Nat → Option Char → List Char → List Char × List Char
  | _, _, [] => ([], [])
  | depth, some quote, c :: rest =>
    let (text, rest) := splitOutside ends depth (if c = quote then none else some quote) rest
    (c :: text, rest)
  | depth, none, c :: rest =>
    let go (depth : Nat) (quote : Option Char) : List Char × List Char :=
      let (text, rest) := splitOutside ends depth quote rest
      (c :: text, rest)
    if isQuote c then go depth (some c)
    else if opensBracket c then go (depth + 1) none
    else if closesBracket c && 0 < depth then go (depth - 1) none
    else if ends c && depth = 0 then ([], c :: rest)
    else go depth none

def endsReference (c : Char) : Bool := closesBracket c || c == '&' || c == '|' || c == ',' || Text.isBlank c

abbrev splitReference : Nat → Option Char → List Char → List Char × List Char := splitOutside endsReference

/-- What follows `word`, without regard to case, if no name character comes next. -/
def dropKeyword? (word : List Char) (text : List Char) : Option (List Char) :=
  let found := text.take word.length
  let rest := text.drop word.length
  if found.map Char.toLower == word.map Char.toLower && !(rest.head?.map isNameChar).getD false then some rest
  else none

abbrev Scan := EStateM Fault Scanner

namespace Scan

def failAt {α : Type} (place : Scanner) (cause : PathFault) : Scan α := throw (.path cause place.position)

def fail {α : Type} (cause : PathFault) : Scan α := do failAt (← get) cause

def unsupported {α : Type} (cause : UnsupportedFault) : Scan α := throw (.unsupported cause)

def moveTo (rest : List Char) : Scan Unit := modify fun s => s.moveTo rest

def peek? : Scan (Option Char) := return (← get).rest.head?

def atEnd : Scan Bool := return (← get).atEnd

/-- The text ahead; it can be cut out only between characters. -/
def rest : Scan (List Char) := do
  let s ← get
  if s.inside = 0 then return s.rest else failAt s .insideChar

/-- The text since an earlier place; it can be cut out only if both places lie between characters. -/
def textFrom (start : Scanner) : Scan (List Char) := do
  let s ← get
  if start.inside = 0 ∧ s.inside = 0 then return start.rest.take (start.rest.length - s.rest.length)
  else failAt s .insideChar

def advance (count : Nat) : Scan Unit := modify fun s => s.advance count

def eat (expected : Char) : Scan Bool := do
  let s ← get
  match s.rest with
  | c :: rest =>
    if c = expected then
      moveTo rest
      return true
    else return false
  | [] => return false

def expect (expected : Char) : Scan Unit := do
  if !(← eat expected) then fail (.expectedChar expected (← get).foundChar?)

def skipBlank : Scan Unit := modify fun s =>
  if (s.rest.head?.map Text.isBlank).getD false then s.moveTo (Text.skipBlank s.rest) else s

def skipDigits : Scan Unit := modify fun s =>
  if (s.rest.head?.map Char.isDigit).getD false then s.moveTo (s.rest.dropWhile Char.isDigit) else s

def eatKeyword (word : String) : Scan Bool := do
  match dropKeyword? word.toList (← get).rest with
  | some rest =>
    moveTo rest
    return true
  | none => return false

/-- Fails at the next character, or with `otherwise` if there is none. -/
def unexpectedAt {α : Type} (place : Scanner) (otherwise : PathFault) : Scan α := do
  match (← get).foundChar? with
  | some found => failAt place (.unexpected found)
  | none => failAt place otherwise

def name : Scan String := do
  let s ← get
  match splitName (← rest) with
  | (none, rest) =>
    moveTo rest
    fail .danglingEscape
  | (some [], _) => unexpectedAt s .expectedName
  | (some found, rest) =>
    moveTo rest
    return String.ofList found

def string : Scan String := do
  let start ← get
  advance 1
  match start.rest.head? with
  | some quote =>
    if isQuote quote then
      match splitString quote (← rest) with
      | .ok (text, rest) =>
        moveTo rest
        return String.ofList text
      | .error .unterminated =>
        moveTo []
        failAt start .unterminatedString
      | .error (.escape cause digits rest) =>
        moveTo rest
        failAt (start.moveTo digits) cause
    else failAt start .expectedString
  | none => failAt start .expectedString

def number : Scan Literal := do
  let start ← get
  let found := splitNumber start.rest
  if !found.sign.isEmpty || (found.digits ++ found.fraction ++ found.exponent) != [] then moveTo found.rest
  if (found.digits ++ found.fraction ++ found.exponent).isEmpty then failAt start .expectedNumber
  else
    let written ← textFrom start
    match found.value? with
    | some value => return value
    | none => failAt start (.invalidNumber (String.ofList (dropPlus written)))

def regex : Scan (String × Bool) := do
  let start ← get
  expect '/'
  match splitRegex (← rest) with
  | some (source, rest) =>
    moveTo rest
    let ignoreCase ← eat 'i'
    return (String.ofList source, ignoreCase)
  | none =>
    moveTo []
    failAt start .unterminatedRegex

/-- Raw text up to `close`, which is looked for byte by byte. -/
def textUntil (close : Char) : Scan String := do
  let start ← get
  let (passed, left) := splitOutside (· == close) 0 none (start.bytes.map Scanner.byteChar)
  advance passed.length
  if left.isEmpty then failAt start (.missingClose close)
  return String.ofList (← textFrom start)

def reference : Scan String := do
  let start ← get
  let (passed, _) := splitReference 0 none (start.bytes.map Scanner.byteChar)
  advance passed.length
  return String.ofList (← textFrom start)

end Scan

end TreeQuery
