import TreeQuery.Tree.Basic

/-!
Order and equality of trees. Numbers compare by value whatever their form, objects without regard to
the order of their entries, and records by identity.
-/

namespace TreeQuery.Tree

def asBinary64? : Tree → Option Binary64
  | integer value => some (Binary64.nearest (decide (value < 0)) value.natAbs 1)
  | decimal value => some (Binary64.nearest (decide (value.mantissa < 0)) value.mantissa.natAbs (tenTo value.scale))
  | float value => some value
  | _ => none

/-- Exact where both sides are decimals, else in binary. -/
def compareNumbers (left right : Tree) : Option Ordering :=
  match left.asDecimal?, right.asDecimal? with
  | some x, some y => some (x.compare y)
  | _, _ =>
    match left.asBinary64?, right.asBinary64? with
    | some x, some y => x.compare y
    | _, _ => none

/-- Strings, booleans and numbers have an order, each among themselves. -/
def compareValues : Tree → Tree → Option Ordering
  | string x, string y => some (compare x y)
  | bool x, bool y => some (compare x y)
  | left, right => if left.isNumber && right.isNumber then left.compareNumbers right else none

mutual

/-- Equality of values: `1`, `1.0` and `1.00` are the same. -/
def sameValue : Tree → Tree → Bool
  | null, null => true
  | bool x, bool y => x == y
  | string x, string y => x == y
  | array xs, array ys => xs.length == ys.length && sameItems xs ys
  | object xs, object ys => xs.length == ys.length && sameEntries xs ys
  | record x _, record y _ => x == y
  | left, right => left.isNumber && right.isNumber && left.compareNumbers right == some .eq

def sameItems : List Tree → List Tree → Bool
  | x :: xs, y :: ys => sameValue x y && sameItems xs ys
  | _, _ => true

def sameEntries : List (String × Tree) → List (String × Tree) → Bool
  | [], _ => true
  | (name, x) :: xs, ys =>
    (match Entries.find? ys name with
      | some y => sameValue x y
      | none => false) && sameEntries xs ys

end

mutual

/-- Equality of trees in which an integer and a decimal always differ. -/
def identical : Tree → Tree → Bool
  | null, null => true
  | bool x, bool y => x == y
  | integer x, integer y => x == y
  | decimal x, decimal y => x.compare y == .eq
  | float x, float y => x.compare y == some .eq
  | string x, string y => x == y
  | array xs, array ys => xs.length == ys.length && identicalItems xs ys
  | object xs, object ys => xs.length == ys.length && identicalEntries xs ys
  | record x _, record y _ => x == y
  | _, _ => false

def identicalItems : List Tree → List Tree → Bool
  | x :: xs, y :: ys => identical x y && identicalItems xs ys
  | _, _ => true

def identicalEntries : List (String × Tree) → List (String × Tree) → Bool
  | [], _ => true
  | (name, x) :: xs, ys =>
    (match Entries.find? ys name with
      | some y => identical x y
      | none => false) && identicalEntries xs ys

end

end TreeQuery.Tree
