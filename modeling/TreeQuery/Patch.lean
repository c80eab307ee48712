import TreeQuery.Edit.Append
import TreeQuery.Path.Parser
import TreeQuery.Json.Writer

/-!
Patches: lists of operations on a document whose places are paths. They are read from JSON and written
back to it.
-/

namespace TreeQuery

inductive PatchKind
  | add
  | remove
  | replace
  | move
  | copy
  | test
deriving DecidableEq, Repr, Inhabited

namespace PatchKind

def name : PatchKind → String
  | add => "add"
  | remove => "remove"
  | replace => "replace"
  | move => "move"
  | copy => "copy"
  | test => "test"

def all : List PatchKind := [add, remove, replace, move, copy, test]

def ofName? (text : String) : Option PatchKind := all.find? fun kind => kind.name == text

end PatchKind

structure PatchOperation where
  kind : PatchKind
  path : String
  source : Option String
  value : Tree
deriving Inhabited

/-- A `test` ends a patch with its answer; otherwise all operations are applied. -/
inductive PatchOutcome
  | applied
  | tested (result : Bool)
deriving DecidableEq, Repr

namespace PatchOperation

/-! ### Reading and writing -/

/-- A kind by its name, or as the key of an object that holds null. -/
def kindOf? : Tree → Option PatchKind
  | .string text => PatchKind.ofName? text
  | .object [(name, .null)] => PatchKind.ofName? name
  | _ => none

def sourceOf? : Option Tree → Option (Option String)
  | none | some .null => some none
  | some (.string text) => some (some text)
  | some _ => none

def pathOf? : Tree → Option String
  | .string text => some text
  | _ => none

def ofFields? (kind path source value : Option Tree) : Option PatchOperation := do
  return {
    kind := ← kindOf? (← kind)
    path := ← pathOf? (← path)
    source := ← sourceOf? source
    value := value.getD .null }

def ofObject? (entries : Entries Tree) : Option PatchOperation :=
  ofFields? (entries.find? "op") (entries.find? "path") (entries.find? "from") (entries.find? "value")

/-- Reads an operation from an element of a list, which may give its parts in order. -/
def ofElement? : Tree → Option PatchOperation
  | .object entries => ofObject? entries
  | .array items => if 4 < items.length then none else ofFields? items[0]? items[1]? items[2]? items[3]?
  | _ => none

def parseAll (text : String) : Except Fault (List PatchOperation) :=
  let operations := match Tree.parse text with
    | some (.array items) => items.mapM ofElement?
    | some (.object entries) => (ofObject? entries).map fun operation => [operation]
    | _ => none
  match operations with
  | some operations => .ok operations
  | none => .error .malformedJson

/-- The operation as an object; a source is written only if there is one. -/
def toTree (operation : PatchOperation) : Tree :=
  let source := match operation.source with
    | some text => [("from", Tree.string text)]
    | none => []
  .object ([("op", .string operation.kind.name), ("path", .string operation.path)] ++ source ++
    [("value", operation.value)])

def identical (left right : PatchOperation) : Bool :=
  left.kind == right.kind && left.path == right.path && left.source == right.source &&
    left.value.identical right.value

/-! ### Applying -/

structure Applied where
  root : Tree
  store : Store
  outcome : Except Fault PatchOutcome

def ofChange (change : Change Tree) : Applied :=
  ⟨change.result, change.store, change.changed.map fun _ => .applied⟩

/-- Takes a value from one place, which a move empties, and assigns it at another. -/
def transfer (operation : PatchOperation) (path : Path) (root : Tree) (store : Store) : Applied :=
  match operation.source with
  | none => ⟨root, store, .error (.mutation (.missingSource operation.kind.name))⟩
  | some sourceText =>
    let found : Except Fault (Path × Tree) := do
      let source ← Path.compile sourceText true
      return (source, ← source.eval (store.snapshot root))
    match found with
    | .error fault => ⟨root, store, .error fault⟩
    | .ok (source, value) =>
      if operation.kind = .copy then ofChange (path.set value root store)
      else
        let taken := source.remove root store
        match taken.changed with
        | .error fault => ⟨taken.result, taken.store, .error fault⟩
        | .ok false =>
          ⟨taken.result, taken.store, .error (.mutation (.moveSource sourceText operation.path))⟩
        | .ok true => ofChange (path.set value taken.result taken.store)

def apply (operation : PatchOperation) (root : Tree) (store : Store) : Applied :=
  match Path.compile operation.path true with
  | .error fault => ⟨root, store, .error fault⟩
  | .ok path =>
    match operation.kind with
    | .add => ofChange (path.patch operation.value false root store)
    | .replace => ofChange (path.patch operation.value true root store)
    | .remove => ofChange (path.remove root store)
    | .move | .copy => operation.transfer path root store
    | .test =>
      ⟨root, store, (path.eval (store.snapshot root)).map fun found =>
        .tested (found.sameValue operation.value)⟩

/-- Applies operations in order, up to the first fault or the first `test`. -/
def applyAll : List PatchOperation → Tree → Store → Applied
  | [], root, store => ⟨root, store, .ok .applied⟩
  | operation :: operations, root, store =>
    let applied := operation.apply root store
    match applied.outcome with
    | .ok .applied => applyAll operations applied.root applied.store
    | _ => applied

end PatchOperation

end TreeQuery
