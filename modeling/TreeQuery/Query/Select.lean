import TreeQuery.Json.Reader
import TreeQuery.Query.Position

/-!
What single segments select from a tree: properties, which map over arrays, everything below a node, and
positions.
-/

namespace TreeQuery

def isSizeName (name : String) : Bool := name == "size" || name == "length"

def embeddedObject? (text : String) : Option (Entries Tree) :=
  let trimmed := Text.trimChars text.toList
  if trimmed.head? == some '\x7b' && trimmed.getLast? == some '\x7d' then
    match Json.parseChars trimmed with
    | some (.object entries) => some entries
    | _ => none
  else none

/-- A property of an object; a size name without a value gives the number of entries. -/
def Entries.property (entries : Entries Tree) (name : String) : Tree :=
  let found := (entries.find? name).getD .null
  if found.isNull && isSizeName name then .integer entries.length else found

namespace Tree

/-- What a value adds to an array it is collected into: arrays add their items. -/
def spliced (dropNulls : Bool) : Tree → List Tree
  | array items => items
  | null => if dropNulls then [] else [null]
  | tree => [tree]

mutual

/-- Reads a property; over an array it is read from each item and the results are collected. -/
def property (dropNulls : Bool) (name : String) : Tree → Tree
  | object entries => Entries.property entries name
  | array items => if isSizeName name then integer items.length else array (propertyOfItems dropNulls name items)
  | record _ entries => (Entries.find? entries name).getD null
  | string text =>
    match embeddedObject? text with
    | some entries => Entries.property entries name
    | none => null
  | _ => null

def propertyOfItems (dropNulls : Bool) (name : String) : List Tree → List Tree
  | [] => []
  | item :: items => (property dropNulls name item).spliced dropNulls ++ propertyOfItems dropNulls name items

end

def matchItems : Tree → List Tree
  | array items => items
  | tree => [tree]

mutual

/-- What is stored under a name at any depth, in document order. A match is not searched further. -/
def deepMatches (name : String) : Tree → List Tree
  | object entries => deepEntryMatches name entries
  | record _ entries => deepEntryMatches name entries
  | array items => deepItemMatches name items
  | _ => []

def deepItemMatches (name : String) : List Tree → List Tree
  | [] => []
  | item :: items => deepMatches name item ++ deepItemMatches name items

def deepEntryMatches (name : String) : List (String × Tree) → List Tree
  | [] => []
  | (key, value) :: entries =>
    (if key = name then value.matchItems else deepMatches name value) ++ deepEntryMatches name entries

end

def children : Tree → List Tree
  | array items => items
  | object entries => Entries.values entries
  | record _ entries => Entries.values entries
  | _ => []

def childArray (tree : Tree) : Tree := if tree.isScalar then null else array tree.children

def isSelected (objectsOnly : Bool) (tree : Tree) : Bool :=
  if objectsOnly then !tree.isScalar && !tree.isArray else tree.isScalar

mutual

def descendants (objectsOnly : Bool) : Tree → List Tree
  | array items => descendantsOfItems objectsOnly items
  | object entries => descendantsOfEntries objectsOnly entries
  | record _ entries => descendantsOfEntries objectsOnly entries
  | _ => []

def descendantsOfItems (objectsOnly : Bool) : List Tree → List Tree
  | [] => []
  | item :: items =>
    (if item.isSelected objectsOnly then [item] else []) ++ descendants objectsOnly item ++
      descendantsOfItems objectsOnly items

def descendantsOfEntries (objectsOnly : Bool) : List (String × Tree) → List Tree
  | [] => []
  | (_, value) :: entries =>
    (if value.isSelected objectsOnly then [value] else []) ++ descendants objectsOnly value ++
      descendantsOfEntries objectsOnly entries

end

/-- An item of an array, or the property of an object that has the index for a name. Index 0 of any other
scalar is the scalar. -/
def atIndex (index : Int) : Tree → Tree
  | array items => ((resolveIndex items.length index).bind fun i => items[i]?).getD null
  | object entries => (Entries.find? entries (toString index)).getD null
  | record _ entries => (Entries.find? entries (toString index)).getD null
  | null => null
  | tree => if index = 0 then tree else null

def slice (start last step : Int) : Tree → Tree
  | array items =>
    match slicePositions items.length start last step with
    | some positions => array (positions.filterMap fun i => items[i]?)
    | none => null
  | _ => null

end Tree

end TreeQuery
