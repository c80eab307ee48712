import TreeQuery.Edit.Basic
import TreeQuery.Query.Eval

/-!
Walking along a path to the nodes that an edit is for. Segments that select several nodes carry the edit
to each of them in turn. On the way, containers may be built where there are none.
-/

namespace TreeQuery

/-- Where containers are built: nowhere, wherever the next segment needs one, or only objects before a
property. -/
inductive Building
  | nothing
  | containers
  | objects
deriving DecidableEq, Repr

/-- How to walk: the document that filters refer to, the treatment of nulls, and what is built. -/
structure Walk where
  root : Tree
  dropNulls : Bool
  building : Building

def maxPadding : Nat := twoTo 20

def padTo (items : List Tree) (position : Nat) : Except Fault (List Tree) :=
  if position < items.length then .ok items
  else if maxPadding ≤ position - items.length then .error (.mutation (.tooFar position items.length))
  else .ok (items ++ List.replicate (position + 1 - items.length) .null)

namespace Tree

mutual

def height : Tree → Nat
  | array items => heightOfItems items + 1
  | object entries => heightOfEntries entries + 1
  | _ => 0

def heightOfItems : List Tree → Nat
  | [] => 0
  | item :: items => max (height item) (heightOfItems items)

def heightOfEntries : List (String × Tree) → Nat
  | [] => 0
  | (_, value) :: entries => max (height value) (heightOfEntries entries)

end

end Tree

/-- The heights of all records together, a bound on how deep references lead before they repeat. -/
def Store.height (store : Store) : Nat :=
  store.records.foldr (fun record total => Tree.heightOfEntries record.entries + total) 0

namespace Walk

def container? (walk : Walk) (following : Option Segment) : Option Tree :=
  match walk.building, following with
  | .containers, some (.property _ false) | .containers, some (.properties _)
  | .objects, some (.property _ false) => some (.object [])
  | .containers, some (.index _) | .containers, some (.indices _)
  | .containers, some (.slice ..) => some (.array [])
  | _, _ => none

def accepts (walk : Walk) (condition : Filter) (item : Tree) (store : Store) : Except Fault Bool :=
  condition.holds (store.snapshot walk.root) walk.dropNulls (store.snapshot item)

def enter (container : Option Tree) (edit : Edit Tree) : Edit Tree := fun node store =>
  edit (if node.isNull then container.getD node else node) store

/-- Edits a property of an object or a record. A missing one is built first, or left out. -/
def atProperty (container : Option Tree) (name : String) (edit : Edit Tree) : Edit Tree
  | .object entries, store =>
    if Entries.contains entries name then
      (Edit.atKey name (enter container edit) entries store).map Tree.object
    else
      match container with
      | some built => (Edit.atKey name edit (Entries.insert name built entries) store).map Tree.object
      | none => ⟨.object entries, store, .ok false⟩
  | .record handle entries, store =>
    (Edit.recordProperty handle name (enter container edit) store).map fun _ => .record handle entries
  | node, store => Edit.skip node store

def atIndex (container : Option Tree) (index : Int) (edit : Edit Tree) : Edit Tree
  | .array items, store =>
    match resolveIndex items.length index with
    | some position => (Edit.atPosition (enter container edit) position items store).map Tree.array
    | none =>
      if 0 ≤ index ∧ container.isSome then
        match padTo items index.toNat with
        | .ok padded => (Edit.atPosition (enter container edit) index.toNat padded store).map Tree.array
        | .error fault => ⟨.array items, store, .error fault⟩
      else ⟨.array items, store, .ok false⟩
  | node, store => atProperty container (toString index) edit node store

def atPositions (positions : List Nat) (edit : Edit Tree) : Edit (List Tree) :=
  Edit.sequence (positions.map (Edit.atPosition edit))

def atSlice (container : Option Tree) (start last step : Int) (edit : Edit Tree) : Edit Tree
  | .array items, store =>
    let positions := (slicePositions items.length start last step).getD []
    (atPositions positions (enter container edit) items store).map Tree.array
  | node, store => Edit.skip node store

def atChildren (edit : Edit Tree) : Edit Tree
  | .array items, store => (Edit.each edit items store).map Tree.array
  | .object entries, store => (Edit.each edit.value entries store).map Tree.object
  | .record handle entries, store =>
    (Edit.recordProperties handle (fun _ => edit) store).map fun _ => .record handle entries
  | node, store => Edit.skip node store

mutual

def deepWithin (name : String) (edit : Edit Tree) (record : Nat → Store → Change Unit) :
    Tree → Store → Change Tree
  | .array items, store => (deepWithinItems name edit record items store).map Tree.array
  | .object entries, store => (deepWithinEntries name edit record entries store).map Tree.object
  | .record handle entries, store => (record handle store).map fun _ => .record handle entries
  | node, store => Edit.skip node store

def deepWithinItems (name : String) (edit : Edit Tree) (record : Nat → Store → Change Unit) :
    List Tree → Store → Change (List Tree)
  | [], store => ⟨[], store, .ok false⟩
  | item :: items, store =>
    (deepWithin name edit record item store).cons items (fun store => deepWithinItems name edit record items store)

def deepWithinEntries (name : String) (edit : Edit Tree) (record : Nat → Store → Change Unit) :
    List (String × Tree) → Store → Change (List (String × Tree))
  | [], store => ⟨[], store, .ok false⟩
  | (key, value) :: entries, store =>
    let change := if key = name then edit value store else deepWithin name edit record value store
    (change.map fun value => (key, value)).cons entries
      (fun store => deepWithinEntries name edit record entries store)

end

/-- Edits what is stored under a name at any depth, through at most `depth` records. Matches are not
searched further. -/
def atDeepProperty (name : String) (edit : Edit Tree) : Nat → Edit Tree
  | 0 => deepWithin name edit fun _ store => ⟨(), store, .ok false⟩
  | depth + 1 => deepWithin name edit fun handle store =>
    Edit.recordProperties handle
      (fun key => if key = name then edit else atDeepProperty name edit depth) store

def belowNode (objectsOnly : Bool) (edit below : Edit Tree) : Edit Tree := fun node store =>
  if node.isScalar then if objectsOnly then Edit.skip node store else edit node store
  else if objectsOnly && node.isArray then below node store
  else (edit node store).andThen below

/-- Edits the nodes below a tree, each before those below it, at most `depth` levels down. Records are
edited but not searched. -/
def atDescendants (objectsOnly : Bool) (edit : Edit Tree) : Nat → Edit Tree
  | 0 => Edit.skip
  | depth + 1 => fun node store =>
    let inner := belowNode objectsOnly edit (atDescendants objectsOnly edit depth)
    match node with
    | .array items => (Edit.each inner items store).map Tree.array
    | .object entries => (Edit.each inner.value entries store).map Tree.object
    | node => Edit.skip node store

def matchingPositions (test : Tree → Except Fault Bool) : Nat → List Tree → Except Fault (List Nat)
  | _, [] => .ok []
  | position, item :: items => do
    let found ← test item
    let others ← matchingPositions test (position + 1) items
    return if found then position :: others else others

/-- Edits the items that pass a test, all of which are chosen before the first is edited; or a single node
that passes. -/
def atMatches (walk : Walk) (condition : Filter) (edit : Edit Tree) : Edit Tree
  | .null, store => Edit.skip .null store
  | .array items, store =>
    match matchingPositions (walk.accepts condition · store) 0 items with
    | .ok positions => (atPositions positions edit items store).map Tree.array
    | .error fault => ⟨.array items, store, .error fault⟩
  | node, store =>
    match walk.accepts condition node store with
    | .ok true => edit node store
    | .ok false => Edit.skip node store
    | .error fault => Edit.fail fault node store

/-- How deep descendants are searched: deeper than the document, even after values are added to it. -/
def searchDepth (node : Tree) (store : Store) : Nat := 2 * (node.height + store.height) + 64

def step (walk : Walk) (following : Option Segment) (edit : Edit Tree) : Segment → Edit Tree
  | .property name false =>
    Edit.throughArrays (atProperty (walk.container? following) name edit)
  | .property name true => fun node store => atDeepProperty name edit store.records.length node store
  | .properties names =>
    Edit.throughArrays (Edit.sequence (names.map fun name => atProperty (walk.container? following) name edit))
  | .wildcard false _ => atChildren edit
  | .wildcard true objectsOnly => fun node store =>
    atDescendants objectsOnly edit (searchDepth node store) node store
  | .index index => atIndex (walk.container? following) index edit
  | .indices indices => Edit.sequence (indices.map fun index => atIndex (walk.container? following) index edit)
  | .slice start last step => atSlice (walk.container? following) start last step edit
  | .filter condition => walk.atMatches condition edit
  | .function name => Edit.fail (.mutation (.navigate (.function name)))

/-- Carries an edit to every node that the segments address. `next` is the segment that the edit itself
stands for, if any. -/
def visit (walk : Walk) (next : Option Segment) (edit : Edit Tree) : List Segment → Edit Tree
  | [] => edit
  | segment :: segments => walk.step (segments.head?.or next) (walk.visit next edit segments) segment

end Walk

end TreeQuery
