import TreeQuery.Path.Scanner
import TreeQuery.Tree.Basic

/-!
Listing a document: every node that is not null, with a path that leads to it.
-/

namespace TreeQuery

/-- Keys that are read as indices, because they are integers in their usual form. -/
def isIndexKey (key : List Char) : Bool :=
  !key.isEmpty && key.all Char.isDigit && (key == ['0'] || key.head? != some '0')

def escapeNameChar (c : Char) : List Char := if isNameChar c then [c] else ['\\', c]

/-- A name as it is written in a path. A leading digit is escaped. -/
def escapeName : List Char → List Char
  | [] => []
  | c :: rest => (if c.isDigit then ['\\', c] else escapeNameChar c) ++ rest.flatMap escapeNameChar

def escapeKey (key : String) : String :=
  if isIndexKey key.toList then key else String.ofList (escapeName key.toList)

/-- Paths with their nodes, and the records met so far. -/
structure Listing where
  nodes : Entries Tree
  seen : List Nat

namespace Listing

def add (listing : Listing) (path : String) (node : Tree) : Listing :=
  { listing with nodes := Entries.insert path node listing.nodes }

def childPath (path step : String) : String := (if path == "/" then "" else path) ++ "/" ++ step

mutual

/-- Lists a node and everything below it; a record is listed once. -/
def collect (path : String) : Tree → Listing → Listing
  | .null, listing => listing
  | .array items, listing => collectItems path 0 items (listing.add path (.array items))
  | .object entries, listing => collectEntries path entries (listing.add path (.object entries))
  | .record handle entries, listing =>
    if listing.seen.contains handle then listing
    else
      collectEntries path entries
        { (listing.add path (.record handle entries)) with seen := handle :: listing.seen }
  | node, listing => listing.add path node

def collectItems (path : String) (position : Nat) : List Tree → Listing → Listing
  | [], listing => listing
  | item :: items, listing =>
    collectItems path (position + 1) items (collect (childPath path (toString position)) item listing)

def collectEntries (path : String) : List (String × Tree) → Listing → Listing
  | [], listing => listing
  | (key, value) :: entries, listing =>
    collectEntries path entries (collect (childPath path (escapeKey key)) value listing)

end

end Listing

def Tree.listing (tree : Tree) : Entries Tree := (Listing.collect "/" tree ⟨[], []⟩).nodes

end TreeQuery
