import TreeQuery.Edit.Remove
import TreeQuery.Proofs.Edit.Places

/-!
# Edits of the objects in arrays

An edit of a property goes through arrays to the objects in them. On a tree without records it is a function of the
tree: it does not fail, and what the store holds is left alone.
-/

namespace TreeQuery

namespace Tree

mutual

/-- Changes the entries of an object, or of each object that an array holds at any depth. -/
def mapObjects (f : Entries Tree → Entries Tree) : Tree → Tree
  | object entries => object (f entries)
  | array items => array (mapObjectsOfItems f items)
  | tree => tree

def mapObjectsOfItems (f : Entries Tree → Entries Tree) : List Tree → List Tree
  | [] => []
  | item :: items => mapObjects f item :: mapObjectsOfItems f items

end

mutual

/-- Whether the entries of an object pass a test, or those of some object that an array holds at any depth. -/
def anyObject (test : Entries Tree → Bool) : Tree → Bool
  | object entries => test entries
  | array items => anyObjectOfItems test items
  | _ => false

def anyObjectOfItems (test : Entries Tree → Bool) : List Tree → Bool
  | [] => false
  | item :: items => anyObject test item || anyObjectOfItems test items

end

variable {f : Entries Tree → Entries Tree} {test : Entries Tree → Bool} {tree : Tree}

theorem mapObjects_array (items : List Tree) : mapObjects f (array items) = array (items.map (mapObjects f)) := by
  rw [mapObjects]
  congr 1
  induction items with
  | nil => rfl
  | cons item items ih => rw [mapObjectsOfItems, ih, List.map_cons]

theorem mapObjects_of_isScalar (hscalar : tree.isScalar = true) : mapObjects f tree = tree := by
  cases tree <;> first | rfl | cases hscalar

theorem anyObject_array (items : List Tree) : anyObject test (array items) = items.any (anyObject test) := by
  rw [anyObject]
  induction items with
  | nil => rfl
  | cons item items ih => rw [anyObjectOfItems, ih, List.any_cons]

theorem anyObject_of_isScalar (hscalar : tree.isScalar = true) : anyObject test tree = false := by
  cases tree <;> first | rfl | cases hscalar

theorem isNull_mapObjects (tree : Tree) : (mapObjects f tree).isNull = tree.isNull := by cases tree <;> rfl

theorem isScalar_mapObjects (f : Entries Tree → Entries Tree) (tree : Tree) :
    (mapObjects f tree).isScalar = tree.isScalar := by cases tree <;> rfl

theorem recordFree_mapObjects {f : Entries Tree → Entries Tree}
    (hf : ∀ entries, (object entries).recordFree = true → (object (f entries)).recordFree = true)
    (hrecordFree : tree.recordFree = true) : (mapObjects f tree).recordFree = true := by
  induction tree using Tree.induction with
  | scalar tree hscalar => rwa [mapObjects_of_isScalar hscalar]
  | array items ih =>
      have hitems := (everywhere_array.mp hrecordFree).2
      rw [mapObjects_array]
      refine everywhere_array.mpr ⟨rfl, List.forall_mem_map.mpr fun item hitem => ?_⟩
      exact ih item hitem (hitems item hitem)
  | object entries _ => exact hf entries hrecordFree
  | record handle entries _ => cases hrecordFree

end Tree

namespace Edit

variable {edit : Edit Tree}

/-- On trees without records the edit is a function, and reports a change where the test holds. -/
def IsFunction (edit : Edit Tree) (f : Tree → Tree) (test : Tree → Bool) : Prop :=
  ∀ (tree : Tree) (store : Store), tree.recordFree = true → edit tree store = ⟨f tree, store, .ok (test tree)⟩

theorem isFunction_throughArrays {f : Entries Tree → Entries Tree} {test : Entries Tree → Bool}
    (hobject : ∀ entries store, (Tree.object entries).recordFree = true →
      edit (.object entries) store = ⟨.object (f entries), store, .ok (test entries)⟩)
    (hscalar : ∀ tree store, tree.isScalar = true → edit tree store = skip tree store) :
    IsFunction (throughArrays edit) (Tree.mapObjects f) (Tree.anyObject test) := by
  intro tree
  induction tree using Tree.induction with
  | scalar tree hscalar' =>
      intro store _
      rw [Tree.mapObjects_of_isScalar hscalar', Tree.anyObject_of_isScalar hscalar']
      have hthrough : throughArrays edit tree store = edit tree store := by
        cases tree <;> first | rfl | cases hscalar'
      exact hthrough.trans (hscalar tree store hscalar')
  | array items ih =>
      intro store hrecordFree
      have hitems := (Tree.everywhere_array.mp hrecordFree).2
      have hall : throughItems edit items store =
          ⟨items.map (Tree.mapObjects f), store, .ok (items.any (Tree.anyObject test))⟩ := by
        clear hrecordFree
        induction items with
        | nil => rfl
        | cons item items hrest =>
            obtain ⟨hitem, hitems⟩ := List.forall_mem_cons.mp hitems
            obtain ⟨ihItem, ihItems⟩ := List.forall_mem_cons.mp ih
            rw [throughItems, ihItem store hitem, Change.cons_eq (hrest ihItems hitems)]
            rfl
      rw [throughArrays, hall, Tree.mapObjects_array, Tree.anyObject_array]
      rfl
  | object entries _ => exact fun store hrecordFree => hobject entries store hrecordFree
  | record handle entries _ => exact fun store hrecordFree => by cases hrecordFree

end Edit

end TreeQuery
