import TreeQuery.Query.Function

/-!
Evaluating paths. A path gives one tree, which is an array where segments select several nodes. Filters
may evaluate further paths from the root.
-/

namespace TreeQuery

def Operand.read (dropNulls : Bool) (item : Tree) : Operand → Tree
  | property name => item.property dropNulls name
  | size => .integer item.size
  | kind => .string item.kindName

/-- Comparison with a number; what is not a number satisfies none, not even inequality. -/
def Comparison.numberHolds (test : Comparison) (value literal : Tree) : Bool :=
  value.isNumber && ((value.compareNumbers literal).map test.accepts).getD false

/-- Equality with a string holds of strings alone; order compares the text of any scalar. -/
def Comparison.stringHolds (test : Comparison) (value : Tree) (text : String) : Bool :=
  match test with
  | eq => value.asString? == some text
  | ne => value.asString? != some text
  | _ => (value.scalarText?.map fun found => test.accepts (compare found text)).getD false

/-- Comparison with the value of another path; order is among strings or among numbers. -/
def Comparison.treeHolds (test : Comparison) (value reference : Tree) : Bool :=
  match test with
  | eq => value.sameValue reference
  | ne => !value.sameValue reference
  | _ =>
    match value, reference with
    | .string x, .string y => test.accepts (compare x y)
    | _, _ => value.isNumber && test.numberHolds value reference

namespace Tree

def equalsInteger (value : Tree) (n : Int) : Bool := value.compareNumbers (integer n) == some .eq

def likeHolds (pattern : LikePattern) (negated : Bool) (value : Tree) : Bool :=
  if value.isNull then false
  else match value.scalarText? with
    | some text => pattern.isMatch text != negated
    | none => negated

def rlikeHolds (pattern : Pattern) (negated : Bool) (value : Tree) : Except Fault Bool :=
  if value.isNull then .ok false
  else match value.scalarText? with
    | some text => .ok (pattern.isMatch text != negated)
    | none => .error (.evaluation (.rlike value.kindName))

def regexHolds (pattern : Pattern) : Tree → Except Fault Bool
  | null => .ok false
  | string text => .ok (pattern.isMatch text)
  | tree => .error (.evaluation (.regex tree.kindName))

def inIntegers (values : List Int) (negated : Bool) (value : Tree) : Bool :=
  if value.isNull then false
  else if value.isNumber then values.any value.equalsInteger != negated
  else negated

def inNullableIntegers (values : List (Option Int)) (negated : Bool) (value : Tree) : Bool :=
  if value.isNull then values.contains none != negated
  else if value.isNumber then (values.filterMap id).any value.equalsInteger != negated
  else negated

def betweenHolds (value low high : Tree) (negated : Bool) : Bool :=
  if value.isNull then false
  else if value.isNumber then
    ((value.compareNumbers low).any (· != .lt) && (value.compareNumbers high).any (· != .gt)) != negated
  else negated

end Tree

def selectItems (test : Tree → Except Fault Bool) : List Tree → Except Fault (List Tree)
  | [] => .ok []
  | item :: items => do
    if ← test item then return item :: (← selectItems test items)
    else selectItems test items

/-- An array keeps the items that pass; any other value is kept if it passes. -/
def filterTree (test : Tree → Except Fault Bool) : Tree → Except Fault Tree
  | .null => .ok .null
  | .array items => (selectItems test items).map Tree.array
  | tree => do return if ← test tree then tree else .null

mutual

def Filter.holds (root : Tree) (dropNulls : Bool) : Filter → Tree → Except Fault Bool
  | .present operand, item => .ok (!(operand.read dropNulls item).isNull)
  | .absent operand, item => .ok (operand.read dropNulls item).isNull
  | .integer operand test value, item => .ok (test.numberHolds (operand.read dropNulls item) (.integer value))
  | .decimal operand test value, item => .ok (test.numberHolds (operand.read dropNulls item) (.decimal value))
  | .string operand test value, item => .ok (test.stringHolds (operand.read dropNulls item) value)
  | .bool operand value equal, item =>
    .ok (((operand.read dropNulls item).asBool? == some value) == equal)
  | .like operand pattern negated, item => .ok ((operand.read dropNulls item).likeHolds pattern negated)
  | .rlike operand pattern negated, item => (operand.read dropNulls item).rlikeHolds pattern negated
  | .regex operand pattern, item => (operand.read dropNulls item).regexHolds pattern
  | .integers operand values negated, item => .ok ((operand.read dropNulls item).inIntegers values negated)
  | .strings operand values negated, item =>
    .ok (values.any (fun value => (operand.read dropNulls item).asString? == some value) != negated)
  | .nullableIntegers operand values negated, item =>
    .ok ((operand.read dropNulls item).inNullableIntegers values negated)
  | .between operand low high negated, item =>
    .ok ((operand.read dropNulls item).betweenHolds low.toTree high.toTree negated)
  | .reference operand test path, item =>
    let value := operand.read dropNulls item
    if value.isNull then .ok false
    else do return test.treeHolds value (← path.follow root)
  | .group .and left right, item => do
    if ← left.holds root dropNulls item then right.holds root dropNulls item else return false
  | .group .or left right, item => do
    if ← left.holds root dropNulls item then return true else right.holds root dropNulls item

def Segment.apply (root : Tree) (dropNulls : Bool) : Segment → Tree → Except Fault Tree
  | .property name false, tree => .ok (tree.property dropNulls name)
  | .property name true, tree => .ok (.array (tree.deepMatches name))
  | .properties names, tree => .ok (.array (names.map (tree.property dropNulls)))
  | .wildcard false _, tree => .ok tree.childArray
  | .wildcard true objectsOnly, tree => .ok (.array (tree.descendants objectsOnly))
  | .index index, tree => .ok (tree.atIndex index)
  | .indices indices, tree => .ok (.array (indices.map tree.atIndex))
  | .slice start last step, tree => .ok (tree.slice start last step)
  | .filter condition, tree => filterTree (fun item => condition.holds root dropNulls item) tree
  | .function name, tree => name.apply tree

def Segment.applyAll (root : Tree) (dropNulls : Bool) : List Segment → Tree → Except Fault Tree
  | [], tree => .ok tree
  | segment :: segments, tree => do
    Segment.applyAll root dropNulls segments (← segment.apply root dropNulls tree)

def Path.follow (root : Tree) : Path → Except Fault Tree
  | .mk _ segments _ dropNulls => Segment.applyAll root dropNulls segments root

end

namespace Path

def eval (path : Path) (root : Tree) : Except Fault Tree :=
  Segment.applyAll root path.dropNulls path.segments root

/-- Whether the path selects anything; null and an empty array count as nothing. -/
def contains (path : Path) (root : Tree) : Except Fault Bool := do
  match ← path.eval root with
  | .null => return false
  | .array items => return !items.isEmpty
  | _ => return true

def containsValue (path : Path) (root value : Tree) : Except Fault Bool := do
  let selected ← path.eval root
  match selected with
  | .array items => return selected.sameValue value || items.any (·.sameValue value)
  | _ => return selected.sameValue value

def size (path : Path) (root : Tree) : Except Fault Int :=
  if root.isNull then .ok (-1) else do return (← path.eval root).size

def keys? (path : Path) (root : Tree) : Except Fault (Option (List String)) :=
  if root.isNull then .ok none else do return (← path.eval root).keys?

end Path

end TreeQuery
