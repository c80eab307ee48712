/-!
Lists of named entries in insertion order. A name is looked up at its first occurrence; every
operation keeps names distinct.
-/

namespace TreeQuery

abbrev Entries (α : Type) := List (String × α)

namespace Entries

variable {α : Type}

def keys (entries : Entries α) : List String := entries.map Prod.fst

def values (entries : Entries α) : List α := entries.map Prod.snd

def find? (entries : Entries α) (name : String) : Option α := entries.lookup name

def contains (entries : Entries α) (name : String) : Bool := (entries.find? name).isSome

/-- A name that is present keeps its place; a new one goes last. -/
def insert (name : String) (value : α) : Entries α → Entries α
  | [] => [(name, value)]
  | (key, old) :: rest =>
    if key = name then (key, value) :: rest else (key, old) :: insert name value rest

def erase (entries : Entries α) (name : String) : Entries α := entries.filter (·.1 != name)

/-- Later values of a repeated name replace earlier ones. -/
def ofList (pairs : List (String × α)) : Entries α :=
  pairs.foldl (fun entries (name, value) => insert name value entries) []

end Entries

end TreeQuery
