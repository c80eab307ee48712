import TreeQuery.Path.Describe

/-!
What can go wrong, as causes, and the message that each cause is reported with. Absent data is never a
fault: missing properties and positions out of range are null or empty.
-/

namespace TreeQuery

inductive PathFault
  | expectedChar (expected : Char) (found : Option Char)
  | unexpected (found : Char)
  | danglingEscape
  | expectedName
  | expectedString
  | unterminatedString
  | truncatedEscape
  | invalidEscape
  | expectedNumber
  | invalidNumber (literal : String)
  | unterminatedRegex
  | invalidRegex
  | missingClose (close : Char)
  | emptyPath
  | unexpectedEnd
  | expectedOperator
  | expectedAnd
  | expectedRegex
  | expectedValue
  | unterminatedList
  | emptyBrackets
  | invalidIndex (text : String)
  | tooManyBounds
  | stepNotPositive
  | endBeforeStart (last start : Int)
  /-- A cut that would fall inside a character. -/
  | insideChar
  /-- Reading that has taken more steps than there is text. -/
  | endless
deriving DecidableEq, Repr

/-- Path text that is understood but has no meaning here. -/
inductive UnsupportedFault
  | function (name : String)
  | functionInFilter (name : String) (position : Nat)
  | notFollowedBy (rest : String)
  | operator (word : String)
  | against (test : String) (operand : String)
  | orderedNull
  | orderedBool
  | nonNumericBound
  | mixedList
deriving DecidableEq, Repr

inductive EvaluationFault
  | rlike (kind : String)
  | regex (kind : String)
  | function (name : String) (kind : String)
  | incomparable (name : String) (left right : String)
  | negativeIndex
  | notStreamed (segment : Segment)

inductive MutationFault
  | navigate (segment : Segment)
  | assignRoot
  | assign (segment : Segment)
  | setProperty (name : String) (kind : String)
  | setIndex (index : Int) (kind : String)
  | tooFar (index length : Nat)
  | removeRoot
  | remove (segment : Segment)
  | notFound (path : String)
  | append (kind : String) (path : String)
  | patchRoot
  | patchEnd (segment : Segment)
  | noSuchProperty (name : String)
  | missingSource (operation : String)
  | moveSource (source target : String)

inductive CursorFault
  | unterminatedString
  | unterminatedContainer
  | expectedValue
  | expectedColon
  | expectedKey
  | unexpectedEnd
  | unexpectedByte
deriving DecidableEq, Repr

inductive Fault
  | path (cause : PathFault) (position : Nat)
  | unsupported (cause : UnsupportedFault)
  | evaluation (cause : EvaluationFault)
  | mutation (cause : MutationFault)
  | cursor (cause : CursorFault) (position : Nat)
  /-- Text that is not the JSON that was asked for. -/
  | malformedJson

def PathFault.message : PathFault → String
  | expectedChar expected (some found) =>
    "Expected '" ++ expected.toString ++ "' but found '" ++ found.toString ++ "'"
  | expectedChar expected none => "Expected '" ++ expected.toString ++ "' but reached end of path"
  | unexpected found => "Unexpected '" ++ found.toString ++ "'"
  | danglingEscape => "Dangling escape at end of path"
  | expectedName => "Expected a name but reached end of path"
  | expectedString => "Expected a quoted string"
  | unterminatedString => "Unterminated string"
  | truncatedEscape => "Truncated unicode escape"
  | invalidEscape => "Invalid unicode escape"
  | expectedNumber => "Expected a number"
  | invalidNumber literal => "Invalid number '" ++ literal ++ "'"
  | unterminatedRegex => "Unterminated regex"
  | invalidRegex => "Invalid regex"
  | missingClose close => "Missing closing '" ++ close.toString ++ "'"
  | emptyPath => "Empty path"
  | unexpectedEnd => "Unexpected end of path"
  | expectedOperator => "Expected an operator"
  | expectedAnd => "Expected 'and' in between"
  | expectedRegex => "Expected /regex/ after '=~'"
  | expectedValue => "Expected a value"
  | unterminatedList => "Unterminated value list"
  | emptyBrackets => "Empty brackets"
  | invalidIndex text => "Invalid index '" ++ text ++ "'"
  | tooManyBounds => "Too many ':' in slice"
  | stepNotPositive => "Slice step must be greater than zero"
  | endBeforeStart last start => "Slice end " ++ toString last ++ " is before start " ++ toString start
  | insideChar => "Not a character boundary"
  | endless => "Path does not end"

def UnsupportedFault.message : UnsupportedFault → String
  | function name => "function " ++ name ++ "()"
  | functionInFilter name position => "function " ++ name ++ "() in filter at position " ++ toString position
  | notFollowedBy rest => "'not' followed by '" ++ rest ++ "'"
  | operator word => "operator '" ++ word ++ "'"
  | against test operand => test ++ " against " ++ operand
  | orderedNull => "null only supports '==' and '!='"
  | orderedBool => "booleans only support '==' and '!='"
  | nonNumericBound => "between requires numeric bounds"
  | mixedList => "'in' list mixes value types"

def EvaluationFault.message : EvaluationFault → String
  | rlike kind => "rlike applied to " ++ kind ++ " value"
  | regex kind => "'=~' applied to " ++ kind ++ " value"
  | function name kind => name ++ "() applied to " ++ kind ++ " value"
  | incomparable name left right => name ++ "() cannot compare " ++ left ++ " with " ++ right
  | negativeIndex => "negative index in stream drill"
  | notStreamed segment => "cannot drill " ++ segment.describe ++ " in a stream"

def MutationFault.message : MutationFault → String
  | navigate segment => "cannot navigate through " ++ segment.describe
  | assignRoot => "cannot assign to the root"
  | assign segment => "cannot assign through " ++ segment.describe
  | setProperty name kind => "cannot set property '" ++ name ++ "' on " ++ kind ++ " value"
  | setIndex index kind => "cannot set index " ++ toString index ++ " on " ++ kind ++ " value"
  | tooFar index length =>
    "index " ++ toString index ++ " is too far past the end of a sequence of length " ++ toString length
  | removeRoot => "cannot remove the root"
  | remove segment => "cannot remove " ++ segment.describe
  | notFound path => "value not found in path " ++ path
  | append kind path => "cannot append to " ++ kind ++ " value at " ++ path
  | patchRoot => "cannot patch the root"
  | patchEnd segment => "patch path must end with a property or an index, not " ++ segment.describe
  | noSuchProperty name => "record has no property '" ++ name ++ "'"
  | missingSource operation => "json patch " ++ operation ++ " requires 'from'"
  | moveSource source target => "json patch move error : " ++ source ++ " -> " ++ target

def CursorFault.message : CursorFault → String
  | unterminatedString => "unterminated string"
  | unterminatedContainer => "unterminated container"
  | expectedValue => "expected a value"
  | expectedColon => "expected ':'"
  | expectedKey => "expected an object key"
  | unexpectedEnd => "unexpected end of input"
  | unexpectedByte => "unexpected byte"

def Fault.message : Fault → String
  | path cause position => cause.message ++ " at position " ++ toString position
  | unsupported cause => "unsupported: " ++ cause.message
  | evaluation cause => "evaluation error: " ++ cause.message
  | mutation cause => "mutation error: " ++ cause.message
  | cursor cause position => "json error: " ++ cause.message ++ " at byte " ++ toString position
  | malformedJson => "json error"

end TreeQuery
