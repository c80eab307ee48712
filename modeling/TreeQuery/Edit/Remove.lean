import TreeQuery.Edit.Set

/-!
Removing whatever a path addresses.
-/

namespace TreeQuery

/-- Removes a property of one node; only one that is not null counts as a change. -/
def Edit.dropProperty (name : String) : Edit Tree
  | .object entries, store =>
    let found := (Entries.find? entries name).getD .null
    ⟨.object (Entries.erase entries name), store, .ok !found.isNull⟩
  | .record handle entries, store => (Edit.removeFromRecord handle name store).map fun _ => .record handle entries
  | node, store => Edit.skip node store

def Edit.removeProperty (name : String) : Edit Tree := Edit.throughArrays (Edit.dropProperty name)

namespace Edit

mutual

def removeWithin (name : String) (record : Nat → Store → Change Unit) : Tree → Store → Change Tree
  | .array items, store => (removeWithinItems name record items store).map Tree.array
  | .object entries, store => (removeWithinEntries name record entries store).map Tree.object
  | .record handle entries, store => (record handle store).map fun _ => .record handle entries
  | node, store => skip node store

def removeWithinItems (name : String) (record : Nat → Store → Change Unit) :
    List Tree → Store → Change (List Tree)
  | [], store => ⟨[], store, .ok false⟩
  | item :: items, store =>
    (removeWithin name record item store).cons items (fun store => removeWithinItems name record items store)

def removeWithinEntries (name : String) (record : Nat → Store → Change Unit) :
    List (String × Tree) → Store → Change (List (String × Tree))
  | [], store => ⟨[], store, .ok false⟩
  | (key, value) :: entries, store =>
    if key = name then (removeWithinEntries name record entries store).orChanged !value.isNull
    else
      ((removeWithin name record value store).map fun value => (key, value)).cons entries
        (fun store => removeWithinEntries name record entries store)

end

def removeDeep (name : String) : Nat → Edit Tree
  | 0 => removeWithin name fun _ store => ⟨(), store, .ok false⟩
  | depth + 1 => removeWithin name fun handle store =>
    (removeFromRecord handle name store).andThen fun _ store =>
      recordProperties handle (fun _ => removeDeep name depth) store

def clear : Edit Tree
  | .array items, store => ⟨.array [], store, .ok !items.isEmpty⟩
  | .object entries, store => ⟨.object [], store, .ok !entries.isEmpty⟩
  | node, store => skip node store

def dropPositions {α : Type} (positions : List Nat) (items : List α) : List α :=
  (items.zipIdx.filter fun item => !positions.contains item.2).map Prod.fst

def removePositions (positions : List Nat) (items : List Tree) : Edit Tree := fun _ store =>
  ⟨.array (dropPositions positions items), store, .ok !positions.isEmpty⟩

def removeIndex (index : Int) : Edit Tree
  | .array items, store => removePositions (resolveIndex items.length index).toList items (.array items) store
  | .object entries, store => dropProperty (toString index) (.object entries) store
  | .record handle entries, store => dropProperty (toString index) (.record handle entries) store
  | node, store => skip node store

def removeIndices (indices : List Int) : Edit Tree
  | .array items, store =>
    removePositions (indices.filterMap (resolveIndex items.length)) items (.array items) store
  | node, store => skip node store

def removeSlice (start last step : Int) : Edit Tree
  | .array items, store =>
    removePositions ((slicePositions items.length start last step).getD []) items (.array items) store
  | node, store => skip node store

end Edit

namespace Walk

def removeMatches (walk : Walk) (condition : Filter) : Edit Tree
  | .array items, store =>
    match matchingPositions (walk.accepts condition · store) 0 items with
    | .ok positions => Edit.removePositions positions items (.array items) store
    | .error fault => Edit.fail fault (.array items) store
  | node, store => Edit.skip node store

/-- Removes the items that pass a filter from an array under a name. An object under the name is only
tested: its holder may have to go. -/
def removeUnder (walk : Walk) (condition : Filter) (name : String) (entries : Entries Tree) (store : Store) :
    Change (Entries Tree) × Bool :=
  match Entries.find? entries name with
  | some (.array children) =>
    let change := walk.removeMatches condition (.array children) store
    (change.map fun children => Entries.insert name children entries, false)
  | some (.object child) =>
    match walk.accepts condition (.object child) store with
    | .ok found => (⟨entries, store, .ok false⟩, found)
    | .error fault => (⟨entries, store, .error fault⟩, false)
  | _ => (⟨entries, store, .ok false⟩, false)

/-- Removes matches under a name from the objects of an array, and tells at which positions stand objects
that go altogether. -/
def removeUnderItems (walk : Walk) (condition : Filter) (name : String) :
    Nat → List Tree → Store → Change (List Tree) × List Nat
  | _, [], store => (⟨[], store, .ok false⟩, [])
  | position, .object entries :: items, store =>
    let (change, doomed) := walk.removeUnder condition name entries store
    let head := change.map Tree.object
    match head.changed with
    | .error fault => (⟨head.result :: items, head.store, .error fault⟩, [])
    | .ok before =>
      let (tail, positions) := removeUnderItems walk condition name (position + 1) items head.store
      ((tail.map (head.result :: ·)).orChanged before, if doomed then position :: positions else positions)
  | position, item :: items, store =>
    let (tail, positions) := removeUnderItems walk condition name (position + 1) items store
    (tail.map (item :: ·), positions)

/-- Removes what passes a filter under a property: items of an array there, or an object there. An object
that passes is removed from an object that holds it, but with its holder from an array of such. -/
def removeChildren (walk : Walk) (condition : Filter) (name : String) : Edit Tree
  | .array items, store =>
    let (change, doomed) := walk.removeUnderItems condition name 0 items store
    match change.changed with
    | .error _ => change.map Tree.array
    | .ok changed =>
      ⟨.array (Edit.dropPositions doomed change.result), change.store, .ok (changed || !doomed.isEmpty)⟩
  | .object entries, store =>
    let (change, doomed) := walk.removeUnder condition name entries store
    if doomed then ⟨.object (Entries.erase entries name), store, .ok true⟩ else change.map Tree.object
  | node, store => Edit.skip node store

def removeLast (walk : Walk) : Segment → Edit Tree
  | .property name false => Edit.removeProperty name
  | .property name true => fun node store => Edit.removeDeep name store.records.length node store
  | .properties names => Edit.sequence (names.map Edit.removeProperty)
  | .wildcard false _ => Edit.clear
  | .index index => Edit.removeIndex index
  | .indices indices => Edit.removeIndices indices
  | .slice start last step => Edit.removeSlice start last step
  | .filter condition => walk.removeMatches condition
  | segment => Edit.fail (.mutation (.remove segment))

end Walk

namespace Path

/-- Removes everything that the path addresses. A filter after a property removes from the holder of the
property. -/
def remove (path : Path) : Edit Tree := fun root store =>
  match path.segments.reverse with
  | .filter condition :: .property name false :: before =>
    if root.isNull then Edit.skip root store
    else
      let walk := path.walk root .nothing
      walk.visit (some (.property name false)) (walk.removeChildren condition name) before.reverse root store
  | _ => path.editLast .nothing .removeRoot Walk.removeLast root store

end Path

end TreeQuery
