import TreeQuery.Proofs.Tree.Everywhere
import TreeQuery.Query.Eval
import TreeQuery.Tree.Store

/-!
# Plain paths

A plain segment, a property or an index, leads to one child at most. Where every segment of a path leads
somewhere, the path has the value that it leads to.
-/

namespace TreeQuery

def Segment.isPlain : Segment → Bool
  | property _ false => true
  | index _ => true
  | _ => false

theorem Segment.exists_of_isPlain {segment : Segment} (hplain : segment.isPlain = true) :
    (∃ name, segment = .property name false) ∨ ∃ index, segment = .index index := by
  cases segment with
  | property name deep =>
      cases deep with
      | false => exact .inl ⟨name, rfl⟩
      | true => cases hplain
  | index index => exact .inr ⟨index, rfl⟩
  | _ => cases hplain

namespace Tree

def child? : Segment → Tree → Option Tree
  | .property name false, object entries => Entries.find? entries name
  | .index index, array items => (resolveIndex items.length index).bind fun position => items[position]?
  | .index index, object entries => Entries.find? entries (toString index)
  | _, _ => none

/-- Where plain segments lead one after another. -/
def descend? : List Segment → Tree → Option Tree
  | [], tree => some tree
  | segment :: segments, tree => (tree.child? segment).bind (descend? segments)

/-- Whether a segment reads a property from an array, and so from its items. -/
def maps : Segment → Tree → Bool
  | .property _ _, array _ => true
  | _, _ => false

/-- On the way along plain segments, as far as it leads, no property is read from an array. -/
def neverMaps : List Segment → Tree → Bool
  | [], _ => true
  | segment :: segments, tree => !tree.maps segment && (tree.child? segment).all (neverMaps segments)

theorem child?_null (segment : Segment) : child? segment null = none := by
  cases segment with
  | property name deep => cases deep <;> rfl
  | _ => rfl

theorem neverMaps_null (segments : List Segment) : neverMaps segments null = true := by
  cases segments with
  | nil => rfl
  | cons segment segments =>
      rw [neverMaps, child?_null]
      cases segment <;> rfl

theorem maps_of_neverMaps {segment : Segment} {segments : List Segment} {tree : Tree}
    (hnever : tree.neverMaps (segment :: segments) = true) : tree.maps segment = false := by
  rw [neverMaps, Bool.and_eq_true, Bool.not_eq_true'] at hnever
  exact hnever.1

theorem neverMaps_of_child? {segment : Segment} {segments : List Segment} {tree child : Tree}
    (hnever : tree.neverMaps (segment :: segments) = true) (hchild : tree.child? segment = some child) :
    child.neverMaps segments = true := by
  rw [neverMaps, Bool.and_eq_true, hchild] at hnever
  exact hnever.2

theorem descend?_cons_eq_some {segment : Segment} {segments : List Segment} {tree found : Tree} :
    descend? (segment :: segments) tree = some found ↔
      ∃ child, tree.child? segment = some child ∧ descend? segments child = some found :=
  Option.bind_eq_some_iff

theorem descend?_append {segments : List Segment} {segment : Segment} {tree node : Tree}
    (hdescend : tree.descend? segments = some node) :
    tree.descend? (segments ++ [segment]) = node.child? segment := by
  induction segments generalizing tree with
  | nil =>
      obtain rfl : tree = node := Option.some.inj hdescend
      rw [List.nil_append, descend?]
      cases tree.child? segment <;> rfl
  | cons first segments ih =>
      obtain ⟨child, hchild, hbelow⟩ := descend?_cons_eq_some.mp hdescend
      rw [List.cons_append, descend?, hchild, Option.bind_some, ih hbelow]

/-- What holds at every depth of a tree holds of its children. -/
theorem everywhere_of_child? {test : Tree → Bool} {segment : Segment} {tree child : Tree} (htest : tree.everywhere test = true)
    (hchild : tree.child? segment = some child) : child.everywhere test = true := by
  simp only [child?] at hchild
  split at hchild
  · exact (everywhere_object.mp htest).2 _ (Entries.mem_of_find? hchild)
  · obtain ⟨position, -, hitem⟩ := Option.bind_eq_some_iff.mp hchild
    exact (everywhere_array.mp htest).2 _ (List.mem_of_getElem? hitem)
  · exact (everywhere_object.mp htest).2 _ (Entries.mem_of_find? hchild)
  · cases hchild

theorem exists_child?_of_getD_ne {segment : Segment} {tree : Tree}
    (hpresent : (tree.child? segment).getD null ≠ null) :
    ∃ child, tree.child? segment = some child ∧ child.isNull = false := by
  cases hchild : tree.child? segment with
  | none => exact absurd (by rw [hchild]; rfl) hpresent
  | some child =>
      rw [hchild, Option.getD_some] at hpresent
      exact ⟨child, rfl, by cases child <;> first | rfl | exact absurd rfl hpresent⟩

/-! ### Showing records -/

section Records

variable (look : Nat → Entries Tree)

theorem showItems_eq_map (items : List Tree) : showItems look items = items.map (showRecords look) := by
  induction items with
  | nil => rfl
  | cons item items ih => rw [showItems, List.map_cons, ih]

theorem showEntries_eq_map (entries : Entries Tree) :
    showEntries look entries = entries.map fun entry => (entry.1, showRecords look entry.2) := by
  induction entries with
  | nil => rfl
  | cons entry entries ih =>
      obtain ⟨key, value⟩ := entry
      rw [showEntries, List.map_cons, ih]

/-- Segments lead to the same place whether records are shown or not. -/
theorem child?_showRecords {segment : Segment} {tree child : Tree} (hchild : tree.child? segment = some child) :
    (tree.showRecords look).child? segment = some (child.showRecords look) := by
  simp only [child?] at hchild
  split at hchild
  · rw [showRecords, child?, showEntries_eq_map, Entries.find?_map, hchild, Option.map_some]
  · obtain ⟨position, hresolve, hitem⟩ := Option.bind_eq_some_iff.mp hchild
    simp [showRecords, child?, showItems_eq_map, hresolve, hitem]
  · rw [showRecords, child?, showEntries_eq_map, Entries.find?_map, hchild, Option.map_some]
  · cases hchild

theorem descend?_showRecords {segments : List Segment} {tree found : Tree} (hdescend : tree.descend? segments = some found) :
    (tree.showRecords look).descend? segments = some (found.showRecords look) := by
  induction segments generalizing tree with
  | nil =>
      obtain rfl : tree = found := Option.some.inj hdescend
      rfl
  | cons segment segments ih =>
      obtain ⟨child, hchild, hbelow⟩ := descend?_cons_eq_some.mp hdescend
      exact descend?_cons_eq_some.mpr ⟨_, child?_showRecords look hchild, ih hbelow⟩

theorem showRecords_of_recordFree {tree : Tree} (hrecordFree : tree.recordFree = true) :
    tree.showRecords look = tree := by
  induction tree using Tree.induction with
  | scalar tree hscalar => cases tree <;> first | rfl | cases hscalar
  | array items ih =>
      have hitems := (everywhere_array.mp hrecordFree).2
      rw [showRecords, showItems_eq_map, List.map_congr_left fun item hitem => ih item hitem (hitems item hitem),
        List.map_id']
  | object entries ih =>
      have hvalues := (everywhere_object.mp hrecordFree).2
      rw [showRecords, showEntries_eq_map, List.map_congr_left fun entry hentry =>
        congrArg (Prod.mk entry.1) (ih entry hentry (hvalues entry hentry)), List.map_id']
  | record handle entries _ => cases hrecordFree

theorem isNull_showRecords (tree : Tree) : (tree.showRecords look).isNull = tree.isNull := by
  cases tree <;> rfl

theorem isArray_showRecords (tree : Tree) : (tree.showRecords look).isArray = tree.isArray := by
  cases tree <;> rfl

end Records

end Tree

section Evaluation

variable {root tree found : Tree} {dropNulls : Bool}

theorem Segment.apply_of_child? {segment : Segment} (hplain : segment.isPlain = true)
    (hchild : tree.child? segment = some found)
    (hsize : ∀ name, segment = .property name false → isSizeName name = true → found.isNull = false) :
    segment.apply root dropNulls tree = .ok found := by
  rcases exists_of_isPlain hplain with ⟨name, rfl⟩ | ⟨index, rfl⟩
  · cases tree with
    | object entries =>
        have hfind : Entries.find? entries name = some found := hchild
        have hproperty : (found.isNull && isSizeName name) = false := by
          cases hname : isSizeName name with
          | false => rw [Bool.and_false]
          | true => rw [hsize name rfl hname, Bool.false_and]
        rw [Segment.apply, Tree.property, Entries.property, hfind]
        simp [hproperty]
    | _ => cases hchild
  · rw [Segment.apply]
    cases tree with
    | array items =>
        have hitem : (resolveIndex items.length index).bind (fun position => items[position]?) = some found := hchild
        rw [Tree.atIndex, hitem, Option.getD_some]
    | object entries =>
        have hfind : Entries.find? entries (toString index) = some found := hchild
        rw [Tree.atIndex, hfind, Option.getD_some]
    | _ => cases hchild

/-- A path has the value that its segments lead to. Only null under a size name is hidden. -/
theorem Segment.applyAll_of_descend? {segments : List Segment} (hplain : ∀ segment ∈ segments, segment.isPlain = true)
    (hdescend : tree.descend? segments = some found)
    (hsize : ∀ name, segments.getLast? = some (.property name false) → isSizeName name = true →
      found.isNull = false) :
    Segment.applyAll root dropNulls segments tree = .ok found := by
  induction segments generalizing tree with
  | nil =>
      obtain rfl : tree = found := Option.some.inj hdescend
      rw [Segment.applyAll]
  | cons segment segments ih =>
      obtain ⟨child, hchild, hdescend⟩ := Tree.descend?_cons_eq_some.mp hdescend
      obtain ⟨hsegment, hsegments⟩ := List.forall_mem_cons.mp hplain
      -- A null under a size name would be hidden; before the last segment there is none, as nothing is below null.
      have happly : segment.apply root dropNulls tree = .ok child := by
        refine Segment.apply_of_child? hsegment hchild fun name hname hisSize => ?_
        cases segments with
        | nil =>
            obtain rfl : child = found := Option.some.inj hdescend
            exact hsize name (by rw [hname]; rfl) hisSize
        | cons next segments =>
            obtain ⟨below, hbelow, -⟩ := Tree.descend?_cons_eq_some.mp hdescend
            cases child with
            | null =>
                rw [Tree.child?_null] at hbelow
                cases hbelow
            | _ => rfl
      have hlast : ∀ name, segments.getLast? = some (.property name false) → isSizeName name = true →
          found.isNull = false := by
        intro name hname hisSize
        refine hsize name ?_ hisSize
        rw [List.getLast?_cons, hname, Option.getD_some]
      rw [Segment.applyAll, happly]
      exact ih hsegments hdescend hlast

end Evaluation

end TreeQuery
