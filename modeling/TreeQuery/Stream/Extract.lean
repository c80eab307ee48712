import TreeQuery.Path.Parser
import TreeQuery.Query.Eval
import TreeQuery.Stream.Cursor

/-!
Evaluating a path on JSON text without building the whole tree: the cursor goes as far as it can, and the
rest of the path is evaluated on the value it stops at.
-/

namespace TreeQuery

def Segment.isStreamed : Segment → Bool
  | property name false => !isSizeName name
  | property _ true => true
  | index position => 0 ≤ position
  | _ => false

/-- Whether the path is evaluated on the whole tree: when it refers to other paths, or ends in nothing, a
function or a list of indices. -/
def Path.needsWhole (path : Path) : Bool :=
  path.refers ||
    match path.segments.getLast? with
    | none | some (.function _) | some (.indices _) => true
    | some _ => false

/-- A segment leaves the cursor on the selected value, or builds a value. -/
inductive Stop
  | here
  | built (tree : Tree)

namespace Movement

/-- Reads a property from every item of an array, up to and past its end. -/
def mapProperty (dropNulls : Bool) (name : HashedName) : Nat → Movement (List Tree)
  | 0 => fail .unexpectedEnd
  | fuel + 1 => do
    match ← token with
    | .endArray =>
      advance
      return []
    | .comma =>
      advance
      mapProperty dropNulls name fuel
    | .beginObject =>
      let value ← match ← seekField name.text name.hash with
        | .nothing => pure Tree.null
        | _ => do
          let value ← readValue
          exitContainer
          pure value
      return value.spliced dropNulls ++ (← mapProperty dropNulls name fuel)
    | _ =>
      let item ← readValue
      return (item.property dropNulls name).spliced dropNulls ++ (← mapProperty dropNulls name fuel)

def deepValues (name : HashedName) : Nat → Movement (List Tree)
  | 0 => fail .unexpectedEnd
  | fuel + 1 => do
    match ← seekDeep name.text name.hash with
    | .nothing => return []
    | _ =>
      let value ← readValue
      return value.matchItems ++ (← deepValues name fuel)

def follow (dropNulls : Bool) (segment : Segment) : Movement Stop := do
  match segment with
  | .property name false =>
    match ← token with
    | .beginObject =>
      match ← seekField name.text name.hash with
      | .nothing => return .built .null
      | _ => return .here
    | .beginArray =>
      advance
      return .built (.array (← mapProperty dropNulls name ((← rest).length + 1)))
    | _ => return .built ((← readValue).property dropNulls name)
  | .property name true => return .built (.array (← deepValues name ((← rest).length + 1)))
  | .index position =>
    if (← token) ≠ .beginArray then return .built ((← readValue).atIndex position)
    else if position < 0 then throw (.evaluation .negativeIndex)
    else if ← seekIndex position.toNat then return .here
    else return .built .null
  | segment => throw (.evaluation (.notStreamed segment))

def finish (dropNulls : Bool) (segments : List Segment) (tree : Tree) : Movement Tree :=
  match Segment.applyAll tree dropNulls segments tree with
  | .ok found => pure found
  | .error fault => throw fault

def extractAll (dropNulls : Bool) : List Segment → Movement Tree
  | [] => readValue
  | segment :: segments => do
    if segment.isStreamed then
      match ← follow dropNulls segment with
      | .here => extractAll dropNulls segments
      | .built tree => finish dropNulls segments tree
    else finish dropNulls (segment :: segments) (← readValue)

end Movement

namespace Path

def extract (path : Path) : Movement Tree := do
  if path.needsWhole then
    match path.eval (← Movement.readValue) with
    | .ok found => return found
    | .error fault => throw fault
  else Movement.extractAll path.dropNulls path.segments

def extractFrom (path : Path) (json : String) : Except Fault Tree :=
  match path.extract.run (Cursor.ofString json) with
  | .ok tree _ => .ok tree
  | .error fault _ => .error fault

end Path

end TreeQuery
