import TreeQuery.Path.Scanner

/-!
Compiling path text. Paths are sequences of segments separated by points or slashes, or in brackets;
filters chain from left to right, with parentheses as the only grouping.
-/

namespace TreeQuery

/-- The scanner, and whether a path inside a filter has been read. -/
structure Parser where
  scanner : Scanner
  refers : Bool
deriving Inhabited

def Parser.ofString (text : String) : Parser := ⟨Scanner.ofString text, false⟩

/-- Reading of what may have paths inside its filters. -/
abbrev Parse := EStateM Fault Parser

/-- What reading with the scanner alone comes to. -/
def Parser.afterScan {α : Type} (refers : Bool) : EStateM.Result Fault Scanner α → EStateM.Result Fault Parser α
  | .ok a scanner => .ok a ⟨scanner, refers⟩
  | .error fault scanner => .error fault ⟨scanner, refers⟩

def Scan.parse {α : Type} (scan : Scan α) : Parse α := fun parser =>
  Parser.afterScan parser.refers (scan.run parser.scanner)

instance : MonadLift Scan Parse := ⟨Scan.parse⟩

/-- Operators of filters; those other than comparisons have a negated form. -/
inductive Operator
  | compare (test : Comparison)
  | like (negated : Bool)
  | rlike (negated : Bool)
  | isIn (negated : Bool)
  | between (negated : Bool)
  | regex
deriving DecidableEq, Repr

namespace Operator

def describe : Operator → String
  | compare test => test.describe
  | like negated => if negated then "NotLike" else "Like"
  | rlike negated => if negated then "NotRlike" else "Rlike"
  | isIn negated => if negated then "NotIn" else "In"
  | between negated => if negated then "NotBetween" else "Between"
  | regex => "RegMatch"

def comparison (operator : Operator) (operand : String) : Scan Comparison :=
  match operator with
  | compare test => pure test
  | other => Scan.unsupported (.against other.describe operand)

end Operator

inductive Listed
  | null
  | bool (value : Bool)
  | string (value : String)
  | number (value : Literal)
deriving DecidableEq, Repr

namespace Listed

def integer? : Listed → Option Int
  | number (.integer value) => some value
  | _ => none

def string? : Listed → Option String
  | string value => some value
  | _ => none

def nullableInteger? : Listed → Option (Option Int)
  | null => some none
  | number (.integer value) => some (some value)
  | _ => none

/-- A list of one value is a comparison with it. -/
def toFilter (operand : Operand) (negated : Bool) : Listed → Filter
  | null => if negated then .present operand else .absent operand
  | bool value => .bool operand value (!negated)
  | string value => .string operand (if negated then .ne else .eq) value
  | number (.integer value) => .integer operand (if negated then .ne else .eq) value
  | number (.decimal value) => .decimal operand (if negated then .ne else .eq) value

end Listed

/-- The narrowest filter for a list: integers, strings, or integers and nulls. -/
def Filter.ofList? (operand : Operand) (negated : Bool) (items : List Listed) : Option Filter :=
  match items with
  | [item] => some (item.toFilter operand negated)
  | _ =>
    match items.mapM Listed.integer?, items.mapM Listed.string?, items.mapM Listed.nullableInteger? with
    | some values, _, _ => some (.integers operand values negated)
    | none, some values, _ => some (.strings operand values negated)
    | none, none, some values => some (.nullableIntegers operand values negated)
    | none, none, none => none

def indexOfText (part : List Char) : Except PathFault Int :=
  let part := Text.trimChars part
  match wordOfChars? part with
  | some value => .ok value
  | none => .error (.invalidIndex (String.ofList part))

/-- A bound of a slice, which may be left out or blank. -/
def boundOfText (missing : Int) : Option (List Char) → Except PathFault Int
  | some part => if (Text.trimChars part).isEmpty then .ok missing else indexOfText part
  | none => .ok missing

def Segment.ofBounds (parts : List (List Char)) : Except PathFault Segment :=
  if 3 < parts.length then .error .tooManyBounds
  else do
    let start ← boundOfText 0 parts[0]?
    let last ← boundOfText (-1) parts[1]?
    let step ← boundOfText 1 parts[2]?
    if step ≤ 0 then .error .stepNotPositive
    else if 0 ≤ last ∧ last < start then .error (.endBeforeStart last start)
    else return .slice start last step

def Segment.ofBrackets (text : String) : Except PathFault Segment :=
  let chars := Text.trimChars text.toList
  if chars.isEmpty then .error .emptyBrackets
  else if chars.contains ',' then
    ((chars.splitOn ',').mapM indexOfText).map Segment.indices
  else if chars.contains ':' then
    Segment.ofBounds (chars.splitOn ':')
  else match wordOfChars? chars with
    | some value => .ok (.index value)
    | none => .ok (.property (String.ofList chars) false)

/-- Paths of one character: a wildcard, a digit, or a name of one letter. -/
def Segment.ofSingle? : List Char → Option Segment
  | [c] =>
    if c = '*' then some (.wildcard false false)
    else if c.isDigit then some (.index (digitValue c))
    else if c.isAlpha || c = '_' then some (.property c.toString false)
    else none
  | _ => none

def PathFunction.ofName? (name : String) : Option PathFunction :=
  match name with
  | "size" | "length" => some .size
  | "type" => some .kind
  | "floor" => some .floor
  | "max" => some .max
  | "min" => some .min
  | "keySet" => some .keySet
  | _ => none

def startsNumber (c : Char) : Bool := c.isDigit || c == '-' || c == '+'

namespace Scan

def parentheses : Scan Unit := do
  expect '('
  skipBlank
  expect ')'

/-! ### Filters -/

def operand : Scan Operand := do
  if ← eat '@' then expect '.'
  let name ← name
  if (← peek?) == some '(' then
    let start ← get
    parentheses
    match PathFunction.ofName? name with
    | some .size => return .size
    | some .kind => return .kind
    | _ => unsupported (.functionInFilter name start.position)
  else return .property name

def negatedOperator : Scan Operator := do
  skipBlank
  if ← eatKeyword "like" then return .like true
  if ← eatKeyword "rlike" then return .rlike true
  if ← eatKeyword "in" then return .isIn true
  if ← eatKeyword "between" then return .between true
  unsupported (.notFollowedBy (String.ofList (← rest)))

def wordOperator : Scan Operator := do
  let start ← get
  if ← eatKeyword "not" then negatedOperator
  else if ← eatKeyword "nin" then return .isIn true
  else if ← eatKeyword "like" then return .like false
  else if ← eatKeyword "rlike" then return .rlike false
  else if ← eatKeyword "in" then return .isIn false
  else if ← eatKeyword "between" then return .between false
  else
    match ← peek? with
    | some c =>
      if isNameChar c then unsupported (.operator (← name))
      else unexpectedAt start .expectedOperator
    | none => failAt start .expectedOperator

def operator : Scan Operator := do
  if ← eat '=' then
    if ← eat '~' then return .regex
    let _ ← eat '='
    return .compare .eq
  else if ← eat '!' then
    expect '='
    return .compare .ne
  else if ← eat '<' then return .compare (if ← eat '=' then .le else .lt)
  else if ← eat '>' then return .compare (if ← eat '=' then .ge else .gt)
  else wordOperator

def bound : Scan Literal := do
  match ← peek? with
  | some c => if startsNumber c then number else unsupported .nonNumericBound
  | none => unsupported .nonNumericBound

def between (operand : Operand) (negated : Bool) : Scan Filter := do
  let low ← bound
  skipBlank
  if !(← eatKeyword "and") then fail .expectedAnd
  skipBlank
  let high ← bound
  return .between operand low high negated

def listedKeyword : Scan Listed := do
  let start ← get
  if ← eatKeyword "null" then return .null
  if ← eatKeyword "true" then return .bool true
  if ← eatKeyword "false" then return .bool false
  unexpectedAt start .unterminatedList

def listed : Scan Listed := do
  match ← peek? with
  | some c =>
    if isQuote c then return .string (← string)
    else if startsNumber c then return .number (← number)
    else listedKeyword
  | none => listedKeyword

def listItems : Nat → Scan (List Listed)
  | 0 => fail .endless
  | fuel + 1 => do
    skipBlank
    let item ← listed
    skipBlank
    if ← eat ',' then return item :: (← listItems fuel)
    expect ')'
    return [item]

def listFilter (operand : Operand) (negated : Bool) (items : List Listed) : Scan Filter :=
  match Filter.ofList? operand negated items with
  | some filter => pure filter
  | none => unsupported .mixedList

def inList (operand : Operand) (negated : Bool) : Scan Filter := do
  expect '('
  skipBlank
  if ← eat ')' then listFilter operand negated []
  else listFilter operand negated (← listItems ((← get).rest.length + 1))

def pattern (source : String) (ignoreCase : Bool) (place : Scanner) : Scan Pattern :=
  match Pattern.compile? source ignoreCase with
  | some pattern => pure pattern
  | none => failAt place .invalidRegex

def regexFilter (operand : Operand) : Scan Filter := do
  let start ← get
  if (← peek?) != some '/' then fail .expectedRegex
  let (source, ignoreCase) ← regex
  return .regex operand (← pattern source ignoreCase start)

def stringFilter (operand : Operand) (operator : Operator) : Scan Filter := do
  let start ← get
  let value ← string
  match operator with
  | .like negated =>
    match LikePattern.compile? value with
    | some pattern => return .like operand pattern negated
    | none => return .string operand (if negated then .ne else .eq) (LikePattern.literal value)
  | .rlike negated => return .rlike operand (← pattern value false start) negated
  | operator => return .string operand (← operator.comparison "a string") value

def numberFilter (operand : Operand) (operator : Operator) : Scan Filter := do
  let test ← operator.comparison "a number"
  match ← number with
  | .integer value => return .integer operand test value
  | .decimal value => return .decimal operand test value

def nullFilter (operand : Operand) : Operator → Scan Filter
  | .compare .eq => pure (.absent operand)
  | .compare .ne => pure (.present operand)
  | _ => unsupported .orderedNull

def boolFilter (operand : Operand) (value : Bool) : Operator → Scan Filter
  | .compare .eq => pure (.bool operand value true)
  | .compare .ne => pure (.bool operand value false)
  | _ => unsupported .orderedBool

def keywordFilter (operand : Operand) (operator : Operator) : Scan Filter := do
  let start ← get
  if ← eatKeyword "null" then nullFilter operand operator
  else if ← eatKeyword "true" then boolFilter operand true operator
  else if ← eatKeyword "false" then boolFilter operand false operator
  else unexpectedAt start .expectedValue

/-- A comparison with what another path selects; faults in its text are placed within the whole text. -/
def referenceFilter (compile : String → Except Fault Path) (operand : Operand) (operator : Operator) :
    Parse Filter := do
  let test ← operator.comparison "a path"
  let start := (← get).scanner
  match compile (← reference) with
  | .ok path =>
    modify fun parser => { parser with refers := true }
    return .reference operand test path
  | .error (.path cause position) => throw (.path cause (start.position + position))
  | .error fault => throw fault

def rightSide (compile : String → Except Fault Path) (operand : Operand) (operator : Operator) :
    Parse Filter := do
  match operator with
  | .between negated => between operand negated
  | .isIn negated => inList operand negated
  | .regex => regexFilter operand
  | operator =>
    match ← peek? with
    | some c =>
      if isQuote c then stringFilter operand operator
      else if startsNumber c then numberFilter operand operator
      else if c = '$' then referenceFilter compile operand operator
      else keywordFilter operand operator
    | none => keywordFilter operand operator

def endsPredicate (c : Char) : Bool := closesBracket c || c == '&' || c == '|'

/-- A test of one operand; an operand alone must not be null. -/
def predicate (compile : String → Except Fault Path) : Parse Filter := do
  let operand ← operand
  skipBlank
  if ((← peek?).map endsPredicate).getD true then return .present operand
  let operator ← operator
  skipBlank
  rightSide compile operand operator

def connective? : Scan (Option Connective) := do
  match ← rest with
  | '&' :: '&' :: _ =>
    advance 2
    return some .and
  | '|' :: '|' :: _ =>
    advance 2
    return some .or
  | _ => return none

mutual

def filter (compile : String → Except Fault Path) : Nat → Parse Filter
  | 0 => fail .endless
  | fuel + 1 => do
    let left ← filterTerm compile fuel
    filterChain compile fuel left

def filterTerm (compile : String → Except Fault Path) : Nat → Parse Filter
  | 0 => fail .endless
  | fuel + 1 => do
    skipBlank
    if ← eat '(' then
      let inner ← filter compile fuel
      skipBlank
      expect ')'
      return inner
    predicate compile

def filterChain (compile : String → Except Fault Path) : Nat → Filter → Parse Filter
  | 0, _ => fail .endless
  | fuel + 1, left => do
    skipBlank
    match ← connective? with
    | some connective =>
      let right ← filterTerm compile fuel
      filterChain compile fuel (.group connective left right)
    | none => return left

end

/-! ### Segments -/

/-- A filter as a segment; each level of its nesting takes at least one character. -/
def filterSegment (compile : String → Except Fault Path) : Parse Segment := do
  return .filter (← filter compile (2 * (← get).scanner.rest.length + 2))

/-- An index after a point; digits too many for an index are a name. -/
def dottedIndex : Scan Segment := do
  let start ← get
  let _ ← eat '-'
  skipDigits
  let text ← textFrom start
  match wordOfChars? text with
  | some value => return .index value
  | none => if text == ['-'] then failAt start (.unexpected '-') else return .property (String.ofList text) false

def functionCall (name : String) : Scan Segment := do
  parentheses
  match PathFunction.ofName? name with
  | some function => return .function function
  | none => unsupported (.function name)

def childName (deep : Bool) : Scan Segment := do
  let c ← peek?
  if c == some '*' then
    advance 1
    return .wildcard deep false
  else if deep && c == some '[' then return .wildcard true true
  else if !deep && (c.map fun c => c.isDigit || c == '-').getD false then dottedIndex
  else
    let name ← name
    if (← peek?) == some '(' then functionCall name else return .property name deep

/-- Passes a separator. A second point leads to any depth, and a wildcard in brackets behind it adds nothing. -/
def separator (slash : Bool) : Scan Bool := do
  advance 1
  if slash then return false
  if ← eat '.' then
    if "[*].".toList.isPrefixOf (← rest) then advance 4
    return true
  return false

/-- A separator and what it separates; a slash may also end the path. -/
def child : Scan (Option Segment) := do
  let slash := (← peek?) == some '/'
  let deep ← separator slash
  if ← atEnd then
    if slash then return none else fail .unexpectedEnd
  return some (← childName deep)

def moreNames : Nat → Scan (List String)
  | 0 => fail .endless
  | fuel + 1 => do
    skipBlank
    if ← eat ',' then
      skipBlank
      let name ← string
      return name :: (← moreNames fuel)
    return []

def quotedNames : Scan Segment := do
  let first ← string
  match ← moreNames ((← get).rest.length + 1) with
  | [] => return .property first false
  | others => return .properties (first :: others)

def bracketContent (compile : String → Except Fault Path) : Parse Segment := do
  let c ← peek?
  if c == some '?' then
    advance 1
    filterSegment compile
  else if c == some '*' then
    advance 1
    return .wildcard false false
  else if (c.map isQuote).getD false then quotedNames
  else if (c.map fun c => c == '\\' || (isNameChar c && !c.isDigit)).getD false then
    let name ← name
    return if name == "last" then .indices [-1] else .property name false
  else
    let start := (← get).scanner
    match Segment.ofBrackets (← textUntil ']') with
    | .ok segment => return segment
    | .error cause => failAt start cause

def bracket (compile : String → Except Fault Path) : Parse Segment := do
  expect '['
  skipBlank
  let segment ← bracketContent compile
  skipBlank
  expect ']'
  return segment

/-- One segment; only the first may be a name without a separator. -/
def segment (compile : String → Except Fault Path) (first : Bool) : Parse (Option Segment) := do
  let start := (← get).scanner
  match ← peek? with
  | none => return none
  | some c =>
    if c = '.' || c = '/' then child
    else if c = '[' then return some (← bracket compile)
    else if c = '?' then
      advance 1
      return some (← filterSegment compile)
    else if first && (c = '\\' || isNameChar c) then return some (.property (← name) false)
    else unexpectedAt start .unexpectedEnd

def segments (compile : String → Except Fault Path) : Nat → Bool → Parse (List Segment)
  | 0, _ => fail .endless
  | fuel + 1, first => do
    skipBlank
    if ← atEnd then return []
    match ← segment compile first with
    | some found => return found :: (← segments compile fuel false)
    | none => segments compile fuel first

def wholePath (compile : String → Except Fault Path) : Parse (List Segment) := do
  skipBlank
  let _ ← eat '$'
  segments compile ((← get).scanner.rest.length + 1) true

end Scan

namespace Path

/-- Compiles a text; paths inside filters nest at most `fuel` deep. -/
def compileWith (dropNulls : Bool) : Nat → String → Except Fault Path
  | 0, _ => .error (.path .endless 0)
  | fuel + 1, text =>
    if (Text.trimChars text.toList).isEmpty then .error (.path .emptyPath 0)
    else
      match Segment.ofSingle? text.toList with
      | some segment => .ok (.mk text [segment] false dropNulls)
      | none =>
        match Scan.wholePath (compileWith dropNulls fuel) (Parser.ofString text) with
        | .ok segments parser => .ok (.mk text segments parser.refers dropNulls)
        | .error fault _ => .error fault

/-- Compiles a path. A path inside a filter is shorter than the text around it. -/
def compile (text : String) (dropNulls : Bool) : Except Fault Path :=
  compileWith dropNulls (text.length + 1) text

end Path

end TreeQuery
