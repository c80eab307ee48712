import TreeQuery.Edit.Walk

/-!
Assigning a value wherever a path points.
-/

namespace TreeQuery

def Edit.writeProperty (name : String) (value : Tree) : Edit Tree
  | .object entries, store => ⟨.object (Entries.insert name value entries), store, .ok true⟩
  | .record handle entries, store =>
    (Edit.writeToRecord handle name value store).map fun _ => .record handle entries
  | .null, store => Edit.skip .null store
  | node, store => Edit.fail (.mutation (.setProperty name node.kindName)) node store

def Edit.setProperty (name : String) (value : Tree) : Edit Tree :=
  Edit.throughArrays (Edit.writeProperty name value)

/-- Writes an item of an array, which grows by nulls as far as needed, or the property named like the
index. -/
def Edit.setIndex (index : Int) (value : Tree) : Edit Tree
  | .array items, store =>
    if 0 ≤ index then
      match padTo items index.toNat with
      | .ok padded => ⟨.array (padded.set index.toNat value), store, .ok true⟩
      | .error fault => ⟨.array items, store, .error fault⟩
    else
      match resolveIndex items.length index with
      | some position => ⟨.array (items.set position value), store, .ok true⟩
      | none => ⟨.array items, store, .ok false⟩
  | .object entries, store => Edit.writeProperty (toString index) value (.object entries) store
  | .record handle entries, store => Edit.writeProperty (toString index) value (.record handle entries) store
  | .null, store => Edit.skip .null store
  | node, store => Edit.fail (.mutation (.setIndex index node.kindName)) node store

def Edit.setChildren (value : Tree) : Edit Tree
  | .array items, store => ⟨.array (items.map fun _ => value), store, .ok !items.isEmpty⟩
  | .object entries, store => ⟨.object (entries.map fun entry => (entry.1, value)), store, .ok !entries.isEmpty⟩
  | node, store => Edit.skip node store

def Edit.setSlice (start last step : Int) (value : Tree) : Edit Tree
  | .array items, store =>
    let positions := (slicePositions items.length start last step).getD []
    ⟨.array (positions.foldl (fun items position => items.set position value) items), store, .ok !positions.isEmpty⟩
  | node, store => Edit.skip node store

def Edit.setLast (value : Tree) : Segment → Edit Tree
  | .property name false => Edit.setProperty name value
  | .property name true => fun node store =>
    Walk.atDeepProperty name (Edit.replace value) store.records.length node store
  | .properties names => Edit.sequence (names.map fun name => Edit.setProperty name value)
  | .wildcard false _ => Edit.setChildren value
  | .index index => Edit.setIndex index value
  | .indices indices => Edit.sequence (indices.map fun index => Edit.setIndex index value)
  | .slice start last step => Edit.setSlice start last step value
  | segment => Edit.fail (.mutation (.assign segment))

namespace Path

/-- How to walk along the path from a root; without references the root is not looked at. -/
def walk (path : Path) (root : Tree) (building : Building) : Walk :=
  ⟨if path.refers then root else .null, path.dropNulls, building⟩

/-- Runs an edit for the last segment at every node that the segments before it address. A null document
is left alone; a path without segments has no last one. -/
def editLast (path : Path) (building : Building) (noSegment : MutationFault)
    (edit : Walk → Segment → Edit Tree) : Edit Tree := fun root store =>
  if root.isNull then Edit.skip root store
  else
    match path.segments.getLast? with
    | none => Edit.fail (.mutation noSegment) root store
    | some last =>
      let walk := path.walk root building
      walk.visit (some last) (edit walk last) path.segments.dropLast root store

def set (path : Path) (value : Tree) : Edit Tree :=
  path.editLast .containers .assignRoot fun _ last => Edit.setLast value last

end Path

end TreeQuery
