import Mathlib.Logic.Relation
import TreeQuery.Proofs.Query.Plain

/-!
# Sharing

Which records a tree holds handles to, and which further ones these lead to. A tree in which records are known by their
handles alone is bare: what its records show is left out, as they may show different things at different times.
-/

namespace TreeQuery

namespace Tree

def handle? : Tree → Option Nat
  | record handle _ => some handle
  | _ => none

mutual

/-- The handles in a tree; those in its records are not looked for. -/
def handles : Tree → List Nat
  | array items => handlesOfItems items
  | object entries => handlesOfEntries entries
  | record handle _ => [handle]
  | _ => []

def handlesOfItems : List Tree → List Nat
  | [] => []
  | item :: items => handles item ++ handlesOfItems items

def handlesOfEntries : List (String × Tree) → List Nat
  | [] => []
  | (_, value) :: entries => handles value ++ handlesOfEntries entries

end

/-- The tree with records that show nothing. -/
def bare (tree : Tree) : Tree := tree.showRecords fun _ => []

theorem handles_array (items : List Tree) : handles (array items) = items.flatMap handles := by
  rw [handles]
  induction items with
  | nil => rfl
  | cons item items ih => rw [handlesOfItems, ih, List.flatMap_cons]

theorem handles_object (entries : Entries Tree) : handles (object entries) = entries.flatMap fun entry => handles entry.2 := by
  rw [handles]
  induction entries with
  | nil => rfl
  | cons entry entries ih => rw [handlesOfEntries, ih, List.flatMap_cons]

variable (look look' : Nat → Entries Tree)

/-- What records show does not depend on what they showed before. -/
theorem showRecords_showRecords (tree : Tree) : (tree.showRecords look').showRecords look = tree.showRecords look := by
  induction tree using Tree.induction with
  | scalar tree hscalar => cases tree <;> first | rfl | cases hscalar
  | array items ih =>
      simp only [showRecords, showItems_eq_map, List.map_map]
      exact congrArg array (List.map_congr_left ih)
  | object entries ih =>
      simp only [showRecords, showEntries_eq_map, List.map_map]
      exact congrArg object (List.map_congr_left fun entry hmem => congrArg (Prod.mk entry.1) (ih entry hmem))
  | record handle entries _ => rfl

theorem bare_showRecords (tree : Tree) : (tree.showRecords look).bare = tree.bare := showRecords_showRecords _ look tree

theorem handle?_showRecords (tree : Tree) : (tree.showRecords look).handle? = tree.handle? := by cases tree <;> rfl

end Tree

namespace Store

/-- A record has a handle to another in one of its entries. -/
def Links (store : Store) (handle other : Nat) : Prop := ∃ entry ∈ (store.get handle).entries, other ∈ entry.2.handles

/-- A tree has a handle to a record, or to one from which links lead to it. -/
def Reaches (store : Store) (tree : Tree) (handle : Nat) : Prop :=
  ∃ first ∈ tree.handles, Relation.ReflTransGen store.Links first handle

end Store

end TreeQuery
