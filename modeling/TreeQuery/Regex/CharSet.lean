import TreeQuery.Unicode.Folding

/-!
Sets of characters as sorted lists of separate ranges of code points.
-/

namespace TreeQuery.Regex

structure CharSet where
  ranges : List (Nat × Nat)
deriving DecidableEq, Repr, Inhabited

namespace CharSet

def maxCode : Nat := 0x10FFFF

/-- Joins ranges that overlap or touch a first one; the list is sorted by first elements. -/
def mergeFrom (first last : Nat) : List (Nat × Nat) → List (Nat × Nat)
  | [] => [(first, last)]
  | (first', last') :: rest =>
    if first' ≤ last + 1 then mergeFrom first (max last last') rest
    else (first, last) :: mergeFrom first' last' rest

def ofRanges (ranges : List (Nat × Nat)) : CharSet :=
  match ranges.mergeSort fun a b => a.1 ≤ b.1 with
  | [] => ⟨[]⟩
  | (first, last) :: rest => ⟨mergeFrom first last rest⟩

def empty : CharSet := ⟨[]⟩

def all : CharSet := ⟨[(0, maxCode)]⟩

def single (c : Char) : CharSet := ⟨[(c.toNat, c.toNat)]⟩

def range (first last : Char) : CharSet := ⟨[(first.toNat, last.toNat)]⟩

def ofChars (cs : List Char) : CharSet := ofRanges (cs.map fun c => (c.toNat, c.toNat))

def containsCode (set : CharSet) (code : Nat) : Bool := set.ranges.any fun r => r.1 ≤ code && code ≤ r.2

def contains (set : CharSet) (c : Char) : Bool := set.containsCode c.toNat

def union (a b : CharSet) : CharSet := ofRanges (a.ranges ++ b.ranges)

/-- The gaps between ranges, from `start` on. -/
def gaps (start : Nat) : List (Nat × Nat) → List (Nat × Nat)
  | [] => if start ≤ maxCode then [(start, maxCode)] else []
  | (first, last) :: rest => if start < first then (start, first - 1) :: gaps (last + 1) rest else gaps (last + 1) rest

def complement (set : CharSet) : CharSet := ⟨gaps 0 set.ranges⟩

def inter (a b : CharSet) : CharSet := (a.complement.union b.complement).complement

def difference (a b : CharSet) : CharSet := a.inter b.complement

def symmetricDifference (a b : CharSet) : CharSet := (a.difference b).union (b.difference a)

/-- Adds every character that differs from a member by case alone. -/
def foldCase (set : CharSet) : CharSet :=
  let targets := (Unicode.foldPairs.filter fun (code, _) => set.containsCode code).map (·.2)
  let folded := set.union (ofRanges (targets.map fun code => (code, code)))
  let sources := (Unicode.foldPairs.filter fun (_, target) => folded.containsCode target).map (·.1)
  folded.union (ofRanges (sources.map fun code => (code, code)))

/-- The same for ASCII letters only. -/
def foldAscii (set : CharSet) : CharSet :=
  let letters := (List.range 26).flatMap fun i =>
    if set.containsCode (65 + i) || set.containsCode (97 + i) then [(65 + i, 65 + i), (97 + i, 97 + i)] else []
  set.union (ofRanges letters)

def isAscii (set : CharSet) : Bool := set.ranges.all fun r => r.2 < 0x80

end CharSet

end TreeQuery.Regex
