import TreeQuery.Fault
import TreeQuery.Tree.Store

/-!
Edits: functions that change a part of a document and tell whether they did. What was changed before a
fault stays changed.
-/

namespace TreeQuery

/-- What an edit leaves behind. -/
structure Change (α : Type) where
  result : α
  store : Store
  changed : Except Fault Bool

abbrev Edit (α : Type) := α → Store → Change α

namespace Change

variable {α β : Type}

def map (f : α → β) (change : Change α) : Change β := { change with result := f change.result }

def orChanged (change : Change α) (before : Bool) : Change α :=
  { change with changed := change.changed.map (before || ·) }

def andThen (first : Change α) (next : Edit α) : Change α :=
  match first.changed with
  | .error _ => first
  | .ok before => (next first.result first.store).orChanged before

/-- A changed element in front of elements that are changed after it; a fault leaves those alone. -/
def cons (head : Change α) (rest : List α) (tail : Store → Change (List α)) : Change (List α) :=
  match head.changed with
  | .error fault => ⟨head.result :: rest, head.store, .error fault⟩
  | .ok before => ((tail head.store).map (head.result :: ·)).orChanged before

end Change

namespace Edit

variable {α : Type}

def skip : Edit α := fun x store => ⟨x, store, .ok false⟩

def fail (fault : Fault) : Edit α := fun x store => ⟨x, store, .error fault⟩

def replace (value : α) : Edit α := fun _ store => ⟨value, store, .ok true⟩

def sequence : List (Edit α) → Edit α
  | [] => skip
  | edit :: edits => fun x store => (edit x store).andThen (sequence edits)

def each (edit : Edit α) : Edit (List α)
  | [], store => ⟨[], store, .ok false⟩
  | x :: xs, store => (edit x store).cons xs (each edit xs)

def atPosition (edit : Edit α) : Nat → Edit (List α)
  | _, [], store => ⟨[], store, .ok false⟩
  | 0, x :: xs, store => (edit x store).map (· :: xs)
  | position + 1, x :: xs, store => (atPosition edit position xs store).map (x :: ·)

def value (edit : Edit α) : Edit (String × α) := fun entry store =>
  (edit entry.2 store).map fun found => (entry.1, found)

def atKey (name : String) (edit : Edit α) : Edit (List (String × α))
  | [], store => ⟨[], store, .ok false⟩
  | (key, found) :: entries, store =>
    if key = name then (edit found store).map fun found => (key, found) :: entries
    else (atKey name edit entries store).map ((key, found) :: ·)

/-- Edits a property of a record. The property is read, edited on its own, and written back only if that
changed it. -/
def recordProperty (handle : Nat) (name : String) (edit : Edit Tree) (store : Store) : Change Unit :=
  let change := edit ((store.get handle).get name) store
  match change.changed with
  | .ok true =>
    match (change.store.get handle).set? name change.result with
    | some record => ⟨(), change.store.put handle record, .ok true⟩
    | none => ⟨(), change.store, .error (.mutation (.noSuchProperty name))⟩
  | .ok false => ⟨(), change.store, .ok false⟩
  | .error fault => ⟨(), change.store, .error fault⟩

def recordProperties (handle : Nat) (edit : String → Edit Tree) (store : Store) : Change Unit :=
  sequence ((store.get handle).names.map fun name _ store => recordProperty handle name (edit name) store) () store

/-- Removes a property of a record; emptying one that is null changes nothing. -/
def removeFromRecord (handle : Nat) (name : String) (store : Store) : Change Unit :=
  let record := store.get handle
  ⟨(), store.put handle (record.remove name), .ok (record.holds name)⟩

def writeToRecord (handle : Nat) (name : String) (value : Tree) (store : Store) : Change Unit :=
  match (store.get handle).set? name value with
  | some record => ⟨(), store.put handle record, .ok true⟩
  | none => ⟨(), store, .error (.mutation (.noSuchProperty name))⟩

mutual

/-- Edits a tree that is no array, and every such tree that an array holds at any depth. -/
def throughArrays (edit : Edit Tree) : Tree → Store → Change Tree
  | .array items, store => (throughItems edit items store).map Tree.array
  | tree, store => edit tree store

def throughItems (edit : Edit Tree) : List Tree → Store → Change (List Tree)
  | [], store => ⟨[], store, .ok false⟩
  | item :: items, store => (throughArrays edit item store).cons items (fun store => throughItems edit items store)

end

end Edit

end TreeQuery
