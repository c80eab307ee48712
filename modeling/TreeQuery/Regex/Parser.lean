import TreeQuery.Regex.Named
import TreeQuery.Regex.Expression
import TreeQuery.Text.Blank

/-!
Reads the text of a pattern: literals, classes with set operations, groups with inline flags,
repetitions, and assertions about places. There are no back references and no look-around.
-/

namespace TreeQuery.Regex

structure Flags where
  ignoreCase : Bool := false
  multiLine : Bool := false
  dotAll : Bool := false
  swapGreed : Bool := false
  unicode : Bool := true
  crlf : Bool := false
  ignoreSpace : Bool := false
deriving DecidableEq, Repr, Inhabited

/-- What is left to read, the flags in force, and the names of groups so far. -/
structure PatternState where
  rest : List Char
  flags : Flags
  names : List String

abbrev PatternReader := StateT PatternState Option

/-- An expression with the depth of nesting in its text. -/
structure Nested where
  expression : Expression
  depth : Nat

def maxNesting : Nat := 250

namespace PatternReader

def refuse {α : Type} : PatternReader α := fun _ => none

def require (condition : Bool) : PatternReader Unit := if condition then pure () else refuse

def flags : PatternReader Flags := return (← get).flags

def peek? : PatternReader (Option Char) := return (← get).rest.head?

def peekSecond? : PatternReader (Option Char) := return ((← get).rest.drop 1).head?

def bump (count : Nat) : PatternReader Unit := modify fun s => { s with rest := s.rest.drop count }

def dropComment (text : List Char) : List Char := (text.dropWhile (· != '\n')).drop 1

def skipSpaceAux : Nat → List Char → List Char
  | 0, text => text
  | fuel + 1, text =>
    match text with
    | '#' :: rest => skipSpaceAux fuel (dropComment rest)
    | c :: rest => if Text.isWhiteSpace c then skipSpaceAux fuel rest else text
    | [] => []

def skippedSpace (s : PatternState) (text : List Char) : List Char :=
  if s.flags.ignoreSpace then skipSpaceAux text.length text else text

def skipSpace : PatternReader Unit := modify fun s => { s with rest := skippedSpace s s.rest }

def bumpSpace : PatternReader Unit := do
  bump 1
  skipSpace

def peekSpace? : PatternReader (Option Char) := return (skippedSpace (← get) ((← get).rest.drop 1)).head?

def char : PatternReader Char := do
  match ← peek? with
  | some c => pure c
  | none => refuse

def eatWord (word : List Char) : PatternReader Bool := do
  let s ← get
  if word.isPrefixOf s.rest then
    set { s with rest := s.rest.drop word.length }
    return true
  return false

/-- The longest run of characters of a kind, with skipped space between them. -/
def takeSpaced (accept : Char → Bool) : Nat → PatternReader (List Char)
  | 0 => pure []
  | fuel + 1 => do
    match ← peek? with
    | some c =>
      if accept c then
        bumpSpace
        return c :: (← takeSpaced accept fuel)
      else return []
    | none => return []

def run {α : Type} (reader : Nat → PatternReader α) : PatternReader α := do
  reader ((← get).rest.length + 1)

def decimal? : PatternReader (Option Nat) := do
  modify fun s => { s with rest := s.rest.dropWhile Text.isWhiteSpace }
  let digits ← run (takeSpaced Char.isDigit)
  let _ ← run (takeSpaced Text.isWhiteSpace)
  if digits.isEmpty then return none
  let value := digitsValue digits
  require (value < twoTo 32)
  return some value

def isMeta (c : Char) : Bool := "\\.+*?()|[]\x7b\x7d^$#&-~".toList.contains c

def isEscapable (c : Char) : Bool :=
  isMeta c || (c.toNat < 0x80 && !c.isAlphanum && c != '<' && c != '>')

def folded (flags : Flags) (set : CharSet) : CharSet :=
  if flags.ignoreCase then if flags.unicode then set.foldCase else set.foldAscii else set

/-- Without Unicode, only ASCII is matched. -/
def checkedSet (set : CharSet) : PatternReader CharSet := do
  require ((← flags).unicode || set.isAscii)
  return set

def isHex (c : Char) : Bool := c.isDigit || ('a' ≤ c && c ≤ 'f') || ('A' ≤ c && c ≤ 'F')

def hexNumber (digits : List Char) : Nat :=
  digits.foldl (fun n c =>
    16 * n + (if c.isDigit then c.toNat - 48 else if 'a' ≤ c then c.toNat - 87 else c.toNat - 55)) 0

def charOfCode (code : Nat) : PatternReader Char := do
  require (code < 0xD800 || (0xDFFF < code && code ≤ 0x10FFFF))
  return Char.ofNat code

def hexDigits : Nat → PatternReader (List Char)
  | 0 => pure []
  | count + 1 => do
    let c ← char
    require (isHex c)
    bumpSpace
    return c :: (← hexDigits count)

/-- A code point of `count` digits, or of any number of digits in braces. -/
def hexChar (count : Nat) : PatternReader Char := do
  bumpSpace
  if (← char) == '\x7b' then
    bumpSpace
    let digits ← run (takeSpaced isHex)
    require ((← char) == '\x7d' && !digits.isEmpty)
    bump 1
    charOfCode (hexNumber digits)
  else charOfCode (hexNumber (← hexDigits count))

def splitUnequal? : List Char → Option (List Char × List Char)
  | '!' :: '=' :: rest => some ([], rest)
  | c :: rest => (splitUnequal? rest).map fun (before, after) => (c :: before, after)
  | [] => none

/-- The class named in braces, alone or as the value of a property, and whether the sign between the two
asks for the other characters. -/
def classNamed? (name : List Char) : Option CharSet × Bool :=
  let parts (mark : Char) := (name.takeWhile (· != mark), (name.dropWhile (· != mark)).drop 1)
  match splitUnequal? name with
  | some (property, value) => (Classes.valued? property value, true)
  | none =>
    if name.contains ':' then (Classes.valued? (parts ':').1 (parts ':').2, false)
    else if name.contains '=' then (Classes.valued? (parts '=').1 (parts '=').2, false)
    else (Classes.named? name, false)

def propertyClass : PatternReader CharSet := do
  let upper := (← char) == 'P'
  bumpSpace
  require (← flags).unicode
  let (found, unequal) ← (do
    if (← char) == '\x7b' then
      bumpSpace
      let name ← run (takeSpaced (· != '\x7d'))
      let _ ← char
      bump 1
      return classNamed? name
    else
      let c ← char
      require (c != '\\')
      bumpSpace
      return (Classes.named? [c], false))
  match found with
  | none => refuse
  | some set =>
    let set := folded (← flags) set
    return if upper != unequal then set.complement else set

def perlClass (c : Char) : PatternReader CharSet := do
  let unicode := (← flags).unicode
  let set := match c.toLower with
    | 'd' => if unicode then Classes.digit else Classes.asciiDigit
    | 's' => if unicode then Classes.space else Classes.asciiSpace
    | _ => if unicode then Classes.word else Classes.asciiWord
  checkedSet (if c.isUpper then set.complement else set)

inductive Escape
  | literal (c : Char)
  | set (set : CharSet)
  | look (condition : Look)

/-- The word of a boundary such as `\b{start}`; `none` where the brace opens a repetition. -/
def boundaryWord? : PatternReader (Option String) := do
  let s ← get
  bumpSpace
  let accept (c : Char) : Bool := c.isAlpha || c == '-'
  if accept (← char) then
    let word ← run (takeSpaced accept)
    require ((← char) == '\x7d')
    bump 1
    return some (String.ofList word)
  else
    set s
    return none

def boundary (word : CharSet) : PatternReader Look := do
  if (← peek?) == some '\x7b' then
    match ← boundaryWord? with
    | some "start" => return .wordStart word
    | some "end" => return .wordEnd word
    | some "start-half" => return .wordStartHalf word
    | some "end-half" => return .wordEndHalf word
    | some _ => refuse
    | none => return .wordBoundary word
  else return .wordBoundary word

def readEscape : PatternReader Escape := do
  bump 1
  let c ← char
  let word := if (← flags).unicode then Classes.word else Classes.asciiWord
  if c.isDigit then refuse
  else if c == 'x' then
    let code := (← get).rest.drop 1
    let c ← hexChar 2
    require ((← flags).unicode || c.toNat < 0x80 || code.head? == some '\x7b')
    return .literal c
  else if c == 'u' then return .literal (← hexChar 4)
  else if c == 'U' then return .literal (← hexChar 8)
  else if c == 'p' || c == 'P' then return .set (← propertyClass)
  else
    bump 1
    if ['d', 's', 'w', 'D', 'S', 'W'].contains c then return .set (← perlClass c)
    else if isEscapable c then return .literal c
    else match c with
      | 'a' => return .literal '\x07'
      | 'f' => return .literal '\x0c'
      | 't' => return .literal '\t'
      | 'n' => return .literal '\n'
      | 'r' => return .literal '\r'
      | 'v' => return .literal '\x0b'
      | 'A' => return .look .textStart
      | 'z' => return .look .textEnd
      | 'b' => return .look (← boundary word)
      | 'B' => return .look (.notWordBoundary word)
      | '<' => return .look (.wordStart word)
      | '>' => return .look (.wordEnd word)
      | _ => refuse

structure NestedSet where
  set : CharSet
  depth : Nat

inductive SetOperation
  | intersection
  | difference
  | symmetricDifference

def SetOperation.apply : SetOperation → CharSet → CharSet → CharSet
  | intersection, a, b => a.inter b
  | difference, a, b => a.difference b
  | symmetricDifference, a, b => a.symmetricDifference b

/-- The items of a class read so far, and the operation whose right side they are. -/
structure ClassState where
  items : List NestedSet
  left : Option (SetOperation × NestedSet)

/-- The union of the items; two or more of them count as one level. -/
def ClassState.union (s : ClassState) : NestedSet :=
  let depth := (s.items.map (·.depth)).foldl max 0
  ⟨(s.items.map (·.set)).foldl CharSet.union CharSet.empty, if s.items.length < 2 then depth else depth + 1⟩

def ClassState.close (flags : Flags) (s : ClassState) : NestedSet :=
  match s.left with
  | none => s.union
  | some (operation, left) =>
    let right := s.union
    ⟨operation.apply (folded flags left.set) (folded flags right.set), max left.depth right.depth + 1⟩

def ClassState.add (s : ClassState) (set : CharSet) : ClassState := { s with items := s.items ++ [⟨set, 0⟩] }

def classEscape : PatternReader Escape := do
  let c ← char
  if c == '\\' then readEscape
  else
    bump 1
    return .literal c

def classLiteral : Escape → PatternReader Char
  | .literal c => pure c
  | _ => refuse

def classRange : PatternReader CharSet := do
  let first ← classEscape
  skipSpace
  let next ← char
  let second ← peekSpace?
  if next != '-' || second == some ']' || second == some '-' then
    match first with
    | .literal c => checkedSet (CharSet.single c)
    | .set set => return set
    | .look _ => refuse
  else
    bumpSpace
    let last ← classEscape
    let first ← classLiteral first
    let last ← classLiteral last
    require (first ≤ last)
    checkedSet (CharSet.range first last)

/-- A named class such as `[:alpha:]`; anything else leaves the state as it was. -/
def asciiClass? : PatternReader (Option CharSet) := do
  let s ← get
  match s.rest with
  | '[' :: ':' :: rest =>
    let negated := rest.head? == some '^'
    let rest := if negated then rest.drop 1 else rest
    let name := rest.takeWhile (· != ':')
    match rest.dropWhile (· != ':'), Classes.ascii? (String.ofList name) with
    | ':' :: ']' :: rest, some found =>
      set { s with rest }
      let found := if s.flags.ignoreCase then folded s.flags found else found
      return some (← checkedSet (if negated then found.complement else found))
    | _, _ => return none
  | _ => return none

def leadingHyphens : Nat → ClassState → PatternReader ClassState
  | 0, s => pure s
  | fuel + 1, s => do
    if (← char) == '-' then
      bumpSpace
      leadingHyphens fuel (s.add (CharSet.single '-'))
    else return s

/-- The start of a class: whether it is negated, and the literals that are special there. -/
def classOpen : PatternReader (Bool × ClassState) := do
  bumpSpace
  let negated := (← char) == '^'
  if negated then bumpSpace
  let s ← run fun fuel => leadingHyphens fuel ⟨[], none⟩
  if s.items.isEmpty && (← char) == ']' then
    bumpSpace
    let _ ← char
    return (negated, s.add (CharSet.single ']'))
  let _ ← char
  return (negated, s)

mutual

def bracketed : Nat → PatternReader NestedSet
  | 0 => refuse
  | fuel + 1 => do
    let (negated, s) ← classOpen
    let found ← classBody fuel s
    let set := folded (← flags) found.set
    return ⟨← checkedSet (if negated then set.complement else set), found.depth + 1⟩

def classBody : Nat → ClassState → PatternReader NestedSet
  | 0, _ => refuse
  | fuel + 1, s => do
    skipSpace
    let c ← char
    let second ← peekSecond?
    let operation (op : SetOperation) : PatternReader NestedSet := do
      bump 2
      classBody fuel ⟨[], some (op, s.close (← flags))⟩
    if c == '[' then
      match ← asciiClass? with
      | some set => classBody fuel (s.add set)
      | none =>
        let inner ← bracketed fuel
        classBody fuel { s with items := s.items ++ [inner] }
    else if c == ']' then
      bump 1
      return s.close (← flags)
    else if c == '&' && second == some '&' then operation .intersection
    else if c == '-' && second == some '-' then operation .difference
    else if c == '~' && second == some '~' then operation .symmetricDifference
    else
      let set ← classRange
      classBody fuel (s.add set)

end

/-- The least and the greatest count in braces. -/
def repetitionRange : PatternReader (Nat × Option Nat) := do
  bumpSpace
  let _ ← char
  let least ← decimal?
  let c ← char
  let found ← (do
    if c == ',' then
      bumpSpace
      if (← char) == '\x7d' then
        match least with
        | some n => return (n, none)
        | none => refuse
      else
        match least, ← decimal? with
        | some n, some m => return (n, some m)
        | _, _ => refuse
    else
      match least with
      | some n => return (n, some n)
      | none => refuse)
  require ((← char) == '\x7d')
  bumpSpace
  match found.2 with
  | some most => require (found.1 ≤ most)
  | none => pure ()
  return found

/-- A part of a sequence; flags take a place there but cannot be repeated. -/
structure Part where
  nested : Nested
  repeatable : Bool

def repeatLast (parts : List Part) (least : Nat) (most : Option Nat) : PatternReader (List Part) := do
  match parts with
  | last :: parts =>
    require last.repeatable
    if (← peek?) == some '?' then bump 1
    return ⟨⟨.mkRepeated last.nested.expression least most, last.nested.depth + 1⟩, true⟩ :: parts
  | [] => refuse

/-- A sequence from its parts, the last one first; two or more of them count as one level. -/
def sequence (parts : List Part) : Nested :=
  match parts with
  | [] => ⟨.empty, 0⟩
  | [part] => part.nested
  | _ => ⟨.concat (parts.reverse.map (·.nested.expression)), (parts.map (·.nested.depth)).foldl max 0 + 1⟩

def choice (branches : List Nested) : Nested :=
  match branches with
  | [branch] => branch
  | _ => ⟨.alternate (branches.map (·.expression)), (branches.map (·.depth)).foldl max 0 + 1⟩

def dotSet (flags : Flags) : CharSet :=
  if flags.dotAll then CharSet.all
  else if flags.crlf then (CharSet.ofChars ['\n', '\r']).complement
  else (CharSet.single '\n').complement

def lineStart (flags : Flags) : Look :=
  if !flags.multiLine then .textStart else if flags.crlf then .crlfStart else .lineStart

def lineEnd (flags : Flags) : Look :=
  if !flags.multiLine then .textEnd else if flags.crlf then .crlfEnd else .lineEnd

def primitive : PatternReader Nested := do
  let now ← flags
  let literal (c : Char) : Nested := ⟨.chars (folded now (CharSet.single c)), 0⟩
  match ← char with
  | '\\' =>
    match ← readEscape with
    | .literal c => return literal c
    | .set set => return ⟨.chars set, 0⟩
    | .look condition => return ⟨.look condition, 0⟩
  | '.' =>
    bump 1
    return ⟨.chars (← checkedSet (dotSet now)), 0⟩
  | '^' =>
    bump 1
    return ⟨.look (lineStart now), 0⟩
  | '$' =>
    bump 1
    return ⟨.look (lineEnd now), 0⟩
  | c =>
    bump 1
    return literal c

def setFlag (flags : Flags) (value : Bool) : Char → Option Flags
  | 'i' => some { flags with ignoreCase := value }
  | 'm' => some { flags with multiLine := value }
  | 's' => some { flags with dotAll := value }
  | 'U' => some { flags with swapGreed := value }
  | 'u' => some { flags with unicode := value }
  | 'R' => some { flags with crlf := value }
  | 'x' => some { flags with ignoreSpace := value }
  | _ => none

/-- Flags up to a colon or a closing parenthesis; each flag and the minus occur once at most. -/
def readFlags : Nat → List Char → Flags → PatternReader (List Char × Flags)
  | 0, _, _ => refuse
  | fuel + 1, seen, flags => do
    let c ← char
    if c == ':' || c == ')' then
      require (seen.head? != some '-')
      return (seen, flags)
    require (!seen.contains c)
    bump 1
    if c == '-' then readFlags fuel (c :: seen) flags
    else
      match setFlag flags (!seen.contains '-') c with
      | some flags => readFlags fuel (c :: seen) flags
      | none => refuse

def isNameStart (c : Char) : Bool := c == '_' || Classes.alphabetic.contains c

def isNameChar (c : Char) : Bool :=
  c == '_' || c == '.' || c == '[' || c == ']' || Classes.alphabetic.contains c ||
    (Classes.ofCategories ["Nd", "Nl", "No"]).contains c

/-- The name of a group, up to the angle bracket; names are distinct. -/
def groupName : PatternReader Unit := do
  let s ← get
  let name := s.rest.takeWhile (· != '>')
  require ((name.head?.map isNameStart).getD false && name.all isNameChar)
  require (!s.names.contains (String.ofList name))
  set { s with names := String.ofList name :: s.names, rest := s.rest.drop name.length }
  require ((← char) == '>')
  bump 1

/-- What opens a group: flags for the rest of the group around it, or for its own content. -/
inductive Opening
  | setFlags (flags : Flags)
  | group (flags : Flags)

def opening : PatternReader Opening := do
  bump 1
  skipSpace
  let now ← flags
  if (← eatWord ['?', 'P', '<']) then
    groupName
    return .group now
  let s ← get
  match s.rest with
  | '?' :: '=' :: _ | '?' :: '!' :: _ | '?' :: '<' :: '=' :: _ | '?' :: '<' :: '!' :: _ => refuse
  | '?' :: '<' :: _ =>
    bump 2
    groupName
    return .group now
  | '?' :: _ =>
    bump 1
    let (seen, chosen) ← run fun fuel => readFlags fuel [] now
    let closing ← char
    bump 1
    if closing == ')' then
      require !seen.isEmpty
      return .setFlags chosen
    return .group chosen
  | _ => return .group now

mutual

def alternation : Nat → PatternReader Nested
  | 0 => refuse
  | fuel + 1 => do
    let branches ← branchList fuel
    return choice branches

def branchList : Nat → PatternReader (List Nested)
  | 0 => refuse
  | fuel + 1 => do
    let branch ← parts fuel []
    if (← peek?) == some '|' then
      bump 1
      return branch :: (← branchList fuel)
    return [branch]

/-- The parts of one branch; those read so far come last one first. -/
def parts : Nat → List Part → PatternReader Nested
  | 0, _ => refuse
  | fuel + 1, found => do
    skipSpace
    match ← peek? with
    | none | some ')' | some '|' => return sequence found
    | some '(' =>
      let now ← flags
      match ← opening with
      | .setFlags chosen =>
        modify fun s => { s with flags := chosen }
        parts fuel (⟨⟨.empty, 0⟩, false⟩ :: found)
      | .group chosen =>
        modify fun s => { s with flags := chosen }
        let inner ← alternation fuel
        require ((← char) == ')')
        bump 1
        modify fun s => { s with flags := now }
        parts fuel (⟨⟨inner.expression, inner.depth + 1⟩, true⟩ :: found)
    | some '[' =>
      let inner ← bracketed fuel
      parts fuel (⟨⟨.chars inner.set, inner.depth⟩, true⟩ :: found)
    | some '?' =>
      bump 1
      parts fuel (← repeatLast found 0 (some 1))
    | some '*' =>
      bump 1
      parts fuel (← repeatLast found 0 none)
    | some '+' =>
      bump 1
      parts fuel (← repeatLast found 1 none)
    | some '\x7b' =>
      require !found.isEmpty
      let (least, most) ← repetitionRange
      parts fuel (← repeatLast found least most)
    | some _ =>
      let part ← primitive
      parts fuel (⟨part, true⟩ :: found)

end

end PatternReader

def Expression.parse? (pattern : List Char) : Option Expression := do
  let (found, final) ← StateT.run (PatternReader.alternation (3 * pattern.length + 4)) ⟨pattern, {}, []⟩
  if final.rest.isEmpty && found.depth ≤ maxNesting && found.expression.weight ≤ maxWeight then
    return found.expression
  else none

end TreeQuery.Regex
