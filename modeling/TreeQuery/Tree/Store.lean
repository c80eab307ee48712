import TreeQuery.Tree.Basic

/-!
Shared records. A tree holds handles to records, and a store holds what the records contain, so that a
change made through one handle is seen through every other. Reading works on snapshots, in which each
record shows its entries.
-/

namespace TreeQuery

/-- A fixed record has the properties it was made with and no others. -/
structure Record where
  entries : Entries Tree
  fixed : Bool
deriving Inhabited

namespace Record

def ofEntries (entries : Entries Tree) : Record := ⟨entries, false⟩

def ofSchema (names : List String) : Record :=
  ⟨Entries.ofList (names.map fun name => (name, Tree.null)), true⟩

def names (record : Record) : List String := Entries.keys record.entries

def find? (record : Record) (name : String) : Option Tree := Entries.find? record.entries name

def get (record : Record) (name : String) : Tree := (record.find? name).getD .null

/-- Writes a property; a fixed record takes only its own. -/
def set? (record : Record) (name : String) (value : Tree) : Option Record :=
  if record.fixed && !Entries.contains record.entries name then none
  else some { record with entries := Entries.insert name value record.entries }

/-- Drops a property, or empties it in a fixed record. -/
def remove (record : Record) (name : String) : Record :=
  if record.fixed then
    if Entries.contains record.entries name then
      { record with entries := Entries.insert name .null record.entries }
    else record
  else { record with entries := Entries.erase record.entries name }

/-- Whether removing the property takes away something other than null. -/
def holds (record : Record) (name : String) : Bool := !(record.get name).isNull

def size (record : Record) : Nat := (record.entries.filter fun entry => !entry.2.isNull).length

end Record

namespace Tree

mutual

/-- Shows in each record of a tree the entries that `look` finds under its handle. -/
def showRecords (look : Nat → Entries Tree) : Tree → Tree
  | array items => array (showItems look items)
  | object entries => object (showEntries look entries)
  | record handle _ => record handle (look handle)
  | tree => tree

def showItems (look : Nat → Entries Tree) : List Tree → List Tree
  | [] => []
  | item :: items => showRecords look item :: showItems look items

def showEntries (look : Nat → Entries Tree) : List (String × Tree) → List (String × Tree)
  | [] => []
  | (name, value) :: entries => (name, showRecords look value) :: showEntries look entries

end

end Tree

/-- The records of one or more trees; a handle is a position in the list. -/
structure Store where
  records : List Record
deriving Inhabited

namespace Store

def empty : Store := ⟨[]⟩

def get (store : Store) (handle : Nat) : Record := (store.records[handle]?).getD ⟨[], false⟩

def put (store : Store) (handle : Nat) (record : Record) : Store := ⟨store.records.set handle record⟩

def add (store : Store) (record : Record) : Nat × Store :=
  (store.records.length, ⟨store.records ++ [record]⟩)

def look (store : Store) : Nat → Nat → Entries Tree
  | 0, _ => []
  | depth + 1, handle => Tree.showEntries (look store depth) (store.get handle).entries

/-- A tree with its records shown. No chain of distinct records is longer than the store. -/
def snapshot (store : Store) (tree : Tree) : Tree := tree.showRecords (store.look store.records.length)

end Store

end TreeQuery
