import TreeQuery.Listing
import TreeQuery.Patch

/-!
Documents: a tree together with the records it holds handles to, and everything that can be done to it
with paths given as text.
-/

namespace TreeQuery

structure Document where
  root : Tree
  store : Store
deriving Inhabited

namespace Document

def ofTree (root : Tree) : Document := ⟨root, Store.empty⟩

/-- The tree with the present entries of its records. -/
def tree (document : Document) : Tree := document.store.snapshot document.root

def ofChange (change : Change Tree) : Document × Except Fault Bool := (⟨change.result, change.store⟩, change.changed)

/-- Runs an edit along a path; a path that does not compile leaves the document alone. -/
def edit (document : Document) (path : String) (run : Path → Edit Tree) : Document × Except Fault Bool :=
  match Path.compile path true with
  | .ok path => ofChange (run path document.root document.store)
  | .error fault => (document, .error fault)

def set (document : Document) (path : String) (value : Tree) : Document × Except Fault Bool :=
  document.edit path fun path => path.set value

def remove (document : Document) (path : String) : Document × Except Fault Bool := document.edit path Path.remove

def append (document : Document) (path : String) (values : List Tree) : Document × Except Fault Bool :=
  document.edit path fun path => path.append values

def apply (document : Document) (operations : List PatchOperation) : Document × Except Fault PatchOutcome :=
  let applied := PatchOperation.applyAll operations document.root document.store
  (⟨applied.root, applied.store⟩, applied.outcome)

/-- The patched tree, or the answer of a `test` as a boolean. -/
def patched (document : Document) (operations : List PatchOperation) : Except Fault Tree :=
  let (document, outcome) := document.apply operations
  outcome.map fun
    | .applied => document.tree
    | .tested result => .bool result

end Document

end TreeQuery
