import TreeQuery.Edit.Remove

/-!
Adding values: at the end of the arrays that a path addresses, or in combination with what is there.
-/

namespace TreeQuery

def Edit.append (path : String) (values : List Tree) : Edit Tree
  | .array items, store => ⟨.array (items ++ values), store, .ok true⟩
  | .null, store => Edit.fail (.mutation (.notFound path)) .null store
  | node, store => Edit.fail (.mutation (.append node.kindName path)) node store

def Store.slot (store : Store) (name : String) : Tree → Tree
  | .object entries => (Entries.find? entries name).getD .null
  | .record handle _ => (store.get handle).get name
  | _ => .null

/-- A new value beside an old one: appended to an array, paired with a scalar, in place of an object. -/
def Tree.combine (old value : Tree) : Tree :=
  match old with
  | array items => array (items ++ [value])
  | null | object _ => value
  | old => array [old, value]

def Tree.patched (old value : Tree) (replacing : Bool) : Tree := if replacing then value else old.combine value

def Edit.patchLast (value : Tree) (replacing : Bool) : Segment → Edit Tree
  | .property name false => fun node store =>
    Edit.setProperty name ((store.slot name node).patched value replacing) node store
  | .index index => fun node store =>
    let old := match node with
      | .array items => ((resolveIndex items.length index).bind fun i => items[i]?).getD .null
      | node => store.slot (toString index) node
    Edit.setIndex index (old.patched value replacing) node store
  | segment => Edit.fail (.mutation (.patchEnd segment))

namespace Path

/-- Appends values to the arrays that the path addresses, of which there must be one. -/
def append (path : Path) (values : List Tree) : Edit Tree := fun root store =>
  if values.isEmpty || root.isNull then Edit.skip root store
  else
    let change := (path.walk root .nothing).visit none (Edit.append path.text values) path.segments root store
    match change.changed with
    | .ok false => { change with changed := .error (.mutation (.notFound path.text)) }
    | _ => change

/-- Writes a value as patches do: objects missing on the way are built. -/
def patch (path : Path) (value : Tree) (replacing : Bool) : Edit Tree :=
  path.editLast .objects .patchRoot fun _ last => Edit.patchLast value replacing last

end Path

end TreeQuery
