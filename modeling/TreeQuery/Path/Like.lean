/-!
LIKE patterns: a percent sign stands for any text, a doubled one for itself. A pattern is split once
into the fragments that a text must start with, contain in order, and end with.
-/

namespace TreeQuery

structure LikePattern where
  startsWith : Option String
  endsWith : Option String
  contains : List String
  /-- The length in bytes of all fragments together. -/
  minLength : Nat
deriving DecidableEq, Repr, Inhabited

namespace LikePattern

/-- Splits at single percent signs; `current` is the fragment read so far, reversed. -/
def splitAux (current : List Char) : List Char → List (List Char)
  | '%' :: '%' :: rest => splitAux ('%' :: current) rest
  | '%' :: rest => current.reverse :: splitAux [] rest
  | c :: rest => splitAux (c :: current) rest
  | [] => [current.reverse]

/-- The fragments between wildcards, with doubled percent signs made single. -/
def fragments (pattern : String) : List String := (splitAux [] pattern.toList).map String.ofList

def nonEmpty? (fragment : String) : Option String := if fragment.isEmpty then none else some fragment

def byteLength (fragments : List String) : Nat :=
  fragments.foldr (fun fragment total => fragment.utf8ByteSize + total) 0

def compile? (pattern : String) : Option LikePattern :=
  match fragments pattern with
  | first :: second :: rest =>
    let last := (second :: rest).getLast (List.cons_ne_nil _ _)
    let middle := ((second :: rest).dropLast).filter (!·.isEmpty)
    some {
      startsWith := nonEmpty? first
      endsWith := nonEmpty? last
      contains := middle
      minLength := byteLength (first :: last :: middle) }
  | _ => none

def literal (pattern : String) : String := "%".intercalate (fragments pattern)

def dropThrough? (fragment : List Char) : List Char → Option (List Char)
  | [] => if fragment.isEmpty then some [] else none
  | c :: text =>
    if fragment.isPrefixOf (c :: text) then some ((c :: text).drop fragment.length)
    else dropThrough? fragment text

def containsInOrder : List String → List Char → Bool
  | [], _ => true
  | fragment :: fragments, text =>
    match dropThrough? fragment.toList text with
    | some rest => containsInOrder fragments rest
    | none => false

/-- The start is cut off before the fragments are looked for; the end is tested on the whole text. -/
def isMatch (pattern : LikePattern) (text : String) : Bool :=
  let start := (pattern.startsWith.getD "").toList
  let finish := (pattern.endsWith.getD "").toList
  decide (pattern.minLength ≤ text.utf8ByteSize) &&
    start.isPrefixOf text.toList &&
    containsInOrder pattern.contains (text.toList.drop start.length) &&
    finish.isSuffixOf text.toList

end LikePattern

end TreeQuery
