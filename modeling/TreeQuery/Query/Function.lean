import TreeQuery.Fault
import TreeQuery.Query.Select
import TreeQuery.Tree.Order

/-!
The functions that a path can end in.
-/

namespace TreeQuery

def Entries.countPresent (entries : Entries Tree) : Nat := (entries.filter fun entry => !entry.2.isNull).length

namespace Tree

/-- Items of an array, or entries that are not null; -1 for everything else. -/
def size : Tree → Int
  | array items => items.length
  | object entries => Entries.countPresent entries
  | record _ entries => Entries.countPresent entries
  | _ => -1

def keys? : Tree → Option (List String)
  | object entries => some (Entries.keys entries)
  | record _ entries => some (Entries.keys (entries.filter fun entry => !entry.2.isNull))
  | _ => none

/-- A number rounded down; decimals become integers where 64 bits suffice. -/
def floorNumber : Tree → Tree
  | decimal value => if InWord value.floor then integer value.floor else decimal (Decimal.ofInt value.floor)
  | tree => tree

def floor : Tree → Except Fault Tree
  | null => .ok null
  | array items => .ok (array (items.map floorNumber))
  | tree => if tree.isNumber then .ok tree.floorNumber else .error (.evaluation (.function "floor" tree.kindName))

/-- The better of two values: the later one only if it lies in the wanted direction. -/
def better (wanted : Ordering) (name : String) (best item : Tree) : Except Fault Tree :=
  match item.compareValues best with
  | some order => .ok (if order == wanted then item else best)
  | none => .error (.evaluation (.incomparable name item.kindName best.kindName))

def extreme (wanted : Ordering) (name : String) : Tree → Except Fault Tree
  | null => .ok null
  | array items =>
    match items.filter (!·.isNull) with
    | [] => .ok null
    | first :: others => others.foldlM (better wanted name) first
  | tree => .error (.evaluation (.function name tree.kindName))

end Tree

def PathFunction.apply : PathFunction → Tree → Except Fault Tree
  | size, tree => .ok (.integer tree.size)
  | kind, tree => .ok (.string tree.kindName)
  | floor, tree => tree.floor
  | max, tree => tree.extreme .gt "max"
  | min, tree => tree.extreme .lt "min"
  | keySet, tree =>
    match tree.keys? with
    | some keys => .ok (.array (keys.map Tree.string))
    | none => .ok .null

end TreeQuery
