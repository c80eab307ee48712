import TreeQuery.Proofs.Edit.Places
import TreeQuery.Proofs.Json.Writing

/-!
# Deep wildcards read and walked

Evaluating a deep wildcard lists nodes below a tree, and a walk over it carries an edit to nodes below the tree, both in
document order. For the wildcard that selects objects these are the same nodes. For the one that selects leaves the
walk stops at the objects and arrays on the way too.
-/

namespace TreeQuery

open TreeQuery.Tree

namespace Tree

mutual

/-- The nodes below a tree, each in front of those below it. -/
def nodesBelow : Tree → List Tree
  | array items => nodesBelowItems items
  | object entries => nodesBelowEntries entries
  | _ => []

def nodesBelowItems : List Tree → List Tree
  | [] => []
  | item :: items => item :: nodesBelow item ++ nodesBelowItems items

def nodesBelowEntries : List (String × Tree) → List Tree
  | [] => []
  | (_, value) :: entries => value :: nodesBelow value ++ nodesBelowEntries entries

end

variable {tree child : Tree} {objectsOnly : Bool}

theorem children_induction {motive : Tree → Prop} (node : ∀ tree, (∀ child ∈ tree.children, motive child) → motive tree)
    (tree : Tree) : motive tree := by
  induction tree using Tree.induction with
  | scalar tree hscalar =>
      have hchildren : tree.children = [] := by cases tree <;> first | rfl | cases hscalar
      exact node tree (hchildren ▸ List.forall_mem_nil _)
  | array items ih => exact node (array items) ih
  | object entries ih => exact node (object entries) (List.forall_mem_map.mpr ih)
  | record handle entries ih => exact node (record handle entries) (List.forall_mem_map.mpr ih)

theorem recordFree_of_mem_children (hrecordFree : tree.recordFree = true) (hchild : child ∈ tree.children) :
    child.recordFree = true := by
  cases tree with
  | array items => exact (everywhere_array.mp hrecordFree).2 child hchild
  | object entries =>
      obtain ⟨entry, hentry, rfl⟩ := List.mem_map.mp hchild
      exact (everywhere_object.mp hrecordFree).2 entry hentry
  | record handle entries => cases hrecordFree
  | _ => cases hchild

theorem nodesBelow_eq (hrecordFree : tree.recordFree = true) :
    tree.nodesBelow = tree.children.flatMap fun child => child :: child.nodesBelow := by
  cases tree with
  | array items =>
      have hitems : nodesBelowItems items = items.flatMap fun child => child :: child.nodesBelow := by
        clear hrecordFree
        induction items with
        | nil => rfl
        | cons item items ih => rw [nodesBelowItems, ih, List.flatMap_cons]
      exact hitems
  | object entries =>
      have hentries : nodesBelowEntries entries =
          (Entries.values entries).flatMap fun child => child :: child.nodesBelow := by
        clear hrecordFree
        induction entries with
        | nil => rfl
        | cons entry entries ih =>
            rw [nodesBelowEntries, ih]
            rfl
      exact hentries
  | record handle entries => cases hrecordFree
  | _ => rfl

theorem descendants_eq_flatMap (objectsOnly : Bool) (tree : Tree) :
    tree.descendants objectsOnly = tree.children.flatMap fun child =>
      (if child.isSelected objectsOnly then [child] else []) ++ child.descendants objectsOnly := by
  have hentries (entries : Entries Tree) : descendantsOfEntries objectsOnly entries =
      (Entries.values entries).flatMap fun child =>
        (if child.isSelected objectsOnly then [child] else []) ++ child.descendants objectsOnly := by
    induction entries with
    | nil => rfl
    | cons entry entries ih =>
        rw [descendantsOfEntries, ih]
        rfl
  cases tree with
  | array items =>
      have hitems : descendantsOfItems objectsOnly items = items.flatMap fun child =>
          (if child.isSelected objectsOnly then [child] else []) ++ child.descendants objectsOnly := by
        induction items with
        | nil => rfl
        | cons item items ih => rw [descendantsOfItems, ih, List.flatMap_cons]
      exact hitems
  | object entries => exact hentries entries
  | record handle entries => exact hentries entries
  | _ => rfl

theorem descendants_eq_filter (hrecordFree : tree.recordFree = true) :
    tree.descendants objectsOnly = tree.nodesBelow.filter (isSelected objectsOnly) := by
  induction tree using children_induction with
  | node tree ih =>
      rw [descendants_eq_flatMap, nodesBelow_eq hrecordFree, List.filter_flatMap, List.flatMap_def, List.flatMap_def]
      congr 1
      refine List.map_congr_left fun child hchild => ?_
      rw [ih child hchild (recordFree_of_mem_children hrecordFree hchild), List.filter_cons]
      split <;> rfl

end Tree

/-! ### The walk -/

/-- Notes every node that it is called on, and changes nothing. -/
def Edit.observe (note : Tree → Store → Store) : Edit Tree := fun node store => ⟨node, note node store, .ok false⟩

section Notes

variable {α : Type} {note : Tree → Store → Store} {edit : Edit α} {x : α} {xs : List α} {nodes : List Tree}

/-- The edit changes nothing, and notes these nodes one after another. -/
def Edit.Notes (edit : Edit α) (note : Tree → Store → Store) (x : α) (nodes : List Tree) : Prop :=
  ∀ store, edit x store = ⟨x, nodes.foldl (fun store node => note node store) store, .ok false⟩

theorem Edit.notes_each {nodes : α → List Tree} (hedit : ∀ x ∈ xs, edit.Notes note x (nodes x)) :
    Edit.Notes (each edit) note xs (xs.flatMap nodes) := by
  induction xs with
  | nil => exact fun store => rfl
  | cons x xs ih =>
      obtain ⟨hx, hxs⟩ := List.forall_mem_cons.mp hedit
      intro store
      rw [each, hx store, Change.cons_eq (ih hxs _), List.flatMap_cons, List.foldl_append]
      rfl

theorem Edit.notes_value {edit : Edit Tree} {entry : String × Tree} (hedit : edit.Notes note entry.2 nodes) :
    edit.value.Notes note entry nodes := by
  intro store
  rw [value, hedit store]
  rfl

end Notes

/-- Whether a deep wildcard carries an edit to a node: to objects, or to whatever there is. -/
def Tree.isWalked (objectsOnly : Bool) (node : Tree) : Bool := !objectsOnly || node.isSelected true

section Walking

variable {note : Tree → Store → Store} {objectsOnly : Bool} {tree node : Tree} {below : Edit Tree}

theorem Walk.notes_belowNode (hbelow : below.Notes note node (node.nodesBelow.filter (isWalked objectsOnly))) :
    (belowNode objectsOnly (Edit.observe note) below).Notes note node
      ((node :: node.nodesBelow).filter (isWalked objectsOnly)) := by
  intro store
  rw [belowNode, List.filter_cons]
  cases hscalar : node.isScalar with
  | true =>
      have hnodes : node.nodesBelow = [] := by cases node <;> first | rfl | cases hscalar
      rw [hnodes]
      cases objectsOnly <;> simp [isWalked, isSelected, hscalar, Edit.skip, Edit.observe]
  | false =>
      have hwalked : isWalked objectsOnly node = !(objectsOnly && node.isArray) := by
        cases objectsOnly <;> simp [isWalked, isSelected, hscalar]
      rw [hwalked]
      cases objectsOnly && node.isArray with
      | true => exact hbelow store
      | false => simp [Edit.observe, Change.andThen, hbelow (note node store), Change.orChanged, Except.map]

theorem Walk.notes_atDescendants {depth : Nat} (hheight : tree.height ≤ depth) (hrecordFree : tree.recordFree = true) :
    (atDescendants objectsOnly (Edit.observe note) depth).Notes note tree
      (tree.nodesBelow.filter (isWalked objectsOnly)) := by
  induction depth generalizing tree with
  | zero =>
      have hnodes : tree.nodesBelow = [] := by cases tree <;> first | rfl | cases hheight
      rw [hnodes]
      exact fun store => rfl
  | succ depth ih =>
      have hbelow : ∀ child : Tree, child.height ≤ depth → child.recordFree = true →
          (belowNode objectsOnly (Edit.observe note) (atDescendants objectsOnly (Edit.observe note) depth)).Notes note child
            ((child :: child.nodesBelow).filter (isWalked objectsOnly)) :=
        fun child hchild hfree => notes_belowNode (ih hchild hfree)
      rw [nodesBelow_eq hrecordFree, List.filter_flatMap]
      intro store
      cases tree with
      | array items =>
          have hitems := (everywhere_array.mp hrecordFree).2
          have heach := Edit.notes_each fun item hmem => hbelow item
            (Nat.le_trans (height_le_of_mem_items hmem) (Nat.le_of_succ_le_succ hheight)) (hitems item hmem)
          rw [atDescendants]
          dsimp only
          rw [heach store]
          rfl
      | object entries =>
          have hvalues := (everywhere_object.mp hrecordFree).2
          have heach := Edit.notes_each fun entry hmem => Edit.notes_value (hbelow entry.2
            (Nat.le_trans (height_le_of_mem_entries hmem) (Nat.le_of_succ_le_succ hheight)) (hvalues entry hmem))
          rw [atDescendants, children, Entries.values, List.flatMap_map]
          dsimp only
          rw [heach store]
          rfl
      | record handle entries => cases hrecordFree
      | _ => rfl

/-- **A deep wildcard that selects leaves is walked past them.** An edit that changes nothing but notes where it is called
is called on the nodes below the tree, in document order: on the objects, if the wildcard selects objects, and otherwise
on all. Evaluation lists the objects, or the leaves. So the two agree always on objects, and on leaves only if there is
no object or array below the tree. -/
theorem Walk.visit_descendants (hrecordFree : tree.recordFree = true) (walk : Walk) (next : Option Segment)
    (note : Tree → Store → Store) (store : Store) (root : Tree) (dropNulls objectsOnly : Bool) :
    let walked := tree.nodesBelow.filter (isWalked objectsOnly)
    let listed := tree.nodesBelow.filter (isSelected objectsOnly)
    walk.visit next (Edit.observe note) [.wildcard true objectsOnly] tree store =
        ⟨tree, walked.foldl (fun store node => note node store) store, .ok false⟩ ∧
      (Segment.wildcard true objectsOnly).apply root dropNulls tree = .ok (.array listed) ∧
      (walked = listed ↔ objectsOnly = true ∨ ∀ node ∈ tree.nodesBelow, node.isScalar = true) := by
  intro walked listed
  refine ⟨?_, ?_, ?_⟩
  · have hdepth : tree.height ≤ searchDepth tree store := by rw [searchDepth]; omega
    rw [visit, step]
    exact notes_atDescendants hdepth hrecordFree store
  · rw [Segment.apply, descendants_eq_filter hrecordFree]
  · cases objectsOnly with
    | true =>
        have hsame : isWalked true = isSelected true := funext fun _ => rfl
        simp [walked, listed, hsame]
    | false =>
        have hall : walked = tree.nodesBelow := List.filter_eq_self.mpr fun _ _ => rfl
        rw [hall, eq_comm, List.filter_eq_self]
        simp [isSelected]

/-- Both find the object in the list and the one in the list within it. -/
theorem Walk.visit_descendants_objects :
    let note (node : Tree) (store : Store) := (store.add ⟨[("node", node)], false⟩).2
    let walk : Walk := ⟨.null, true, .nothing⟩
    let inner := Tree.object [("b", .integer 1)]
    let tree := Tree.object [("a", .array [inner, .array [.object []]]), ("c", .integer 2)]
    let change := walk.visit none (Edit.observe note) [.wildcard true true] tree Store.empty
    tree.recordFree = true ∧ change.store.records.map (·.get "node") = [inner, .object []] ∧
      (Segment.wildcard true true).apply .null true tree = .ok (.array [inner, .object []]) := by
  intro note walk inner tree change
  have hrecordFree : tree.recordFree = true := rfl
  obtain ⟨hvisit, happly, -⟩ := visit_descendants hrecordFree walk none note Store.empty .null true true
  refine ⟨hrecordFree, ?_, happly⟩
  rw [show change = _ from hvisit]
  rfl

/-- The walk calls the edit on the object that holds the leaf, which evaluation does not list. -/
theorem Walk.visit_descendants_leaf :
    let note (node : Tree) (store : Store) := (store.add ⟨[("node", node)], false⟩).2
    let walk : Walk := ⟨.null, true, .nothing⟩
    let inner := Tree.object [("x", .integer 1)]
    let tree := Tree.object [("a", inner)]
    let change := walk.visit none (Edit.observe note) [.wildcard true false] tree Store.empty
    tree.recordFree = true ∧ change.store.records.map (·.get "node") = [inner, .integer 1] ∧
      (Segment.wildcard true false).apply .null true tree = .ok (.array [.integer 1]) ∧
      [inner, .integer 1] ≠ [.integer 1] := by
  intro note walk inner tree change
  exact ⟨rfl, rfl, by rw [Segment.apply]; rfl, by simp⟩

end Walking

end TreeQuery
