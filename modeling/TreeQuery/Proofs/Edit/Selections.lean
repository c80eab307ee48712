import TreeQuery.Proofs.Edit.Deciding
import TreeQuery.Proofs.Edit.Refusing
import TreeQuery.Proofs.Edit.Removing

/-!
# Removing a selection from an array

An index, a list of indices, a slice and a filter each pick some of the items of an array. Removing what they pick
keeps the other items in order, and changes the tree at the array alone. Slices and filters list the items that they
pick when the path is evaluated.
-/

namespace TreeQuery

open TreeQuery.Tree

/-! ### What is picked -/

section Picking

variable (root : Tree) (dropNulls : Bool)

/-- Segments that pick items of an array. Slices have positive steps, as no others compile. -/
def Segment.isSelection : Segment → Bool
  | index _ | indices _ | filter _ => true
  | slice _ _ step => decide (0 < step)
  | _ => false

/-- Segments whose value over an array lists the items that they pick. -/
def Segment.isListing : Segment → Bool
  | slice .. | filter _ => true
  | _ => false

def Tree.passes (test : Tree → Except Fault Bool) (item : Tree) : Bool :=
  match test item with
  | .ok found => found
  | .error _ => false

def Tree.firstFault? (test : Tree → Except Fault Bool) (items : List Tree) : Option Fault :=
  items.findSome? fun item =>
    match test item with
    | .ok _ => none
    | .error fault => some fault

def Segment.picks (length : Nat) : Segment → Tree × Nat → Bool
  | .index number, (_, position) => decide (position = number ∨ position = number + length)
  | .indices numbers, (_, position) =>
    numbers.any fun number => decide (position = number ∨ position = number + length)
  | .slice start last step, (_, position) =>
    decide (sliceBound length start ≤ position ∧ position ≤ sliceBound length last ∧
      step ∣ position - max (sliceBound length start) 0)
  | .filter condition, (item, _) => passes (condition.holds root dropNulls ·) item
  | _, _ => false

def Segment.picked (segment : Segment) (items : List Tree) : List Tree :=
  (items.zipIdx.filter (segment.picks root dropNulls items.length)).map Prod.fst

def Segment.spared (segment : Segment) (items : List Tree) : List Tree :=
  (items.zipIdx.filter fun entry => !segment.picks root dropNulls items.length entry).map Prod.fst

def Segment.fault? : Segment → List Tree → Option Fault
  | .filter condition, items => firstFault? (condition.holds root dropNulls ·) items
  | _, _ => none

end Picking

section Positions

variable {root : Tree} {dropNulls : Bool} {items : List Tree} {positions : List Nat} {picks : Tree × Nat → Bool}
  {test : Tree → Except Fault Bool}

theorem Tree.exists_error_of_firstFault? {fault : Fault} (hfault : firstFault? test items = some fault) :
    ∃ item ∈ items, test item = .error fault := by
  obtain ⟨item, hitem, hfault⟩ := List.exists_of_findSome?_eq_some hfault
  refine ⟨item, hitem, ?_⟩
  cases htest : test item with
  | ok found => rw [htest] at hfault; cases hfault
  | error _ => rw [htest] at hfault; rw [Option.some.inj hfault]

theorem Tree.eq_ok_true_of_passes {item : Tree} (hpasses : passes test item = true) : test item = .ok true := by
  rw [passes] at hpasses
  cases htest : test item with
  | ok found =>
      rw [htest] at hpasses
      exact congrArg Except.ok hpasses
  | error fault => rw [htest] at hpasses; cases hpasses

theorem Tree.eq_ok_false_of_firstFault? {item : Tree} (hfault : firstFault? test items = none) (hitem : item ∈ items)
    (hpasses : passes test item = false) : test item = .ok false := by
  have hnone := List.findSome?_eq_none_iff.mp hfault item hitem
  rw [passes] at hpasses
  cases htest : test item with
  | ok found =>
      rw [htest] at hpasses
      exact congrArg Except.ok hpasses
  | error fault => rw [htest] at hnone; cases hnone

theorem Walk.matchingPositions_eq (start : Nat) :
    matchingPositions test start items =
      match firstFault? test items with
      | some fault => .error fault
      | none => .ok (((items.zipIdx start).filter fun entry => passes test entry.1).map Prod.snd) := by
  induction items generalizing start with
  | nil => rfl
  | cons item items ih =>
      rw [matchingPositions, firstFault?, List.findSome?_cons, ← firstFault?, ih, List.zipIdx_cons, List.filter_cons,
        passes]
      cases test item with
      | error fault => rfl
      | ok found =>
          cases firstFault? test items with
          | some fault => rfl
          | none => cases found <;> rfl

theorem selectItems_eq :
    selectItems test items =
      match firstFault? test items with
      | some fault => .error fault
      | none => .ok (items.filter (passes test)) := by
  induction items with
  | nil => rfl
  | cons item items ih =>
      rw [selectItems, firstFault?, List.findSome?_cons, ← firstFault?, ih, List.filter_cons, passes]
      cases test item with
      | error fault => rfl
      | ok found =>
          cases firstFault? test items with
          | some fault => cases found <;> rfl
          | none => cases found <;> rfl

theorem Edit.removePositions_eq
    (hmem : ∀ position, position ∈ positions ↔ ∃ item, items[position]? = some item ∧ picks (item, position) = true)
    (node : Tree) (store : Store) :
    removePositions positions items node store =
      ⟨.array ((items.zipIdx.filter fun entry => !picks entry).map Prod.fst), store,
        .ok !((items.zipIdx.filter picks).map Prod.fst).isEmpty⟩ := by
  have hpicks : ∀ entry ∈ items.zipIdx, positions.contains entry.2 = picks entry := by
    intro entry hentry
    have hitem := List.mem_zipIdx_iff_getElem?.mp hentry
    rw [Bool.eq_iff_iff, List.contains_iff_mem, hmem]
    simp [hitem]
  have hdrop : dropPositions positions items =
      (items.zipIdx.filter fun entry => !picks entry).map Prod.fst := by
    rw [dropPositions, List.filter_congr fun entry hentry => congrArg (!·) (hpicks entry hentry)]
  have hempty : positions.isEmpty = ((items.zipIdx.filter picks).map Prod.fst).isEmpty := by
    rw [Bool.eq_iff_iff, List.isEmpty_iff, List.isEmpty_iff, List.map_eq_nil_iff, List.filter_eq_nil_iff,
      List.eq_nil_iff_forall_not_mem]
    simpa [hmem, List.mem_zipIdx_iff_getElem?] using forall_comm
  rw [removePositions, hdrop, hempty]

theorem Walk.removeMatches_items {walk : Walk} {condition : Filter} {store : Store}
    (htest : ∀ item ∈ items, walk.accepts condition item store = test item) :
    walk.removeMatches condition (.array items) store =
      match firstFault? test items with
      | some fault => ⟨.array items, store, .error fault⟩
      | none => ⟨.array (items.filter (!passes test ·)), store, .ok !(items.filter (passes test)).isEmpty⟩ := by
  rw [removeMatches, matchingPositions_congr htest, matchingPositions_eq]
  cases firstFault? test items with
  | some fault => rfl
  | none =>
      rw [← map_fst_filter_zipIdx (passes test) items, ← map_fst_filter_zipIdx (!passes test ·) items]
      refine Edit.removePositions_eq (fun position => ?_) (.array items) store
      simp [List.mem_zipIdx_iff_getElem?]

theorem Segment.picked_filter (condition : Filter) :
    (Segment.filter condition).picked root dropNulls items =
      items.filter (passes (condition.holds root dropNulls ·)) :=
  map_fst_filter_zipIdx (passes (condition.holds root dropNulls ·)) items

theorem Segment.spared_filter (condition : Filter) :
    (Segment.filter condition).spared root dropNulls items =
      items.filter (!passes (condition.holds root dropNulls ·) ·) :=
  map_fst_filter_zipIdx (!passes (condition.holds root dropNulls ·) ·) items

theorem Walk.removeLast_items {walk : Walk} {last : Segment} (hselection : last.isSelection = true) {store : Store}
    (htest : ∀ condition, last = .filter condition → ∀ item ∈ items,
      walk.accepts condition item store = condition.holds root dropNulls item) :
    walk.removeLast last (.array items) store =
      match last.fault? root dropNulls items with
      | some fault => ⟨.array items, store, .error fault⟩
      | none =>
        ⟨.array (last.spared root dropNulls items), store, .ok !(last.picked root dropNulls items).isEmpty⟩ := by
  cases last with
  | index number =>
      refine Edit.removePositions_eq (fun position => ?_) (.array items) store
      simp [Segment.picks, resolveIndex_eq_some_iff, exists_getElem?_iff]
  | indices numbers =>
      refine Edit.removePositions_eq (fun position => ?_) (.array items) store
      simp [Segment.picks, resolveIndex_eq_some_iff, exists_getElem?_iff, and_left_comm]
  | slice start last step =>
      refine Edit.removePositions_eq (fun position => ?_) (.array items) store
      rw [mem_slicePositions (of_decide_eq_true hselection)]
      simp [Segment.picks, exists_getElem?_iff]
  | filter condition =>
      rw [removeLast, removeMatches_items (htest condition rfl), Segment.picked_filter, Segment.spared_filter]
      rfl
  | _ => cases hselection

end Positions

/-! ### The way to the array -/

namespace Tree

/-- A new node put at an address of a tree; all else there stays as it is. -/
def putAt (new : Tree) : Address → Tree → Tree
  | [], _ => new
  | .key name :: address, object entries => object (Entries.modify name (putAt new address) entries)
  | .position index :: address, array items => array (items.modify index (putAt new address))
  | _, tree => tree

variable {new node tree child : Tree} {step : Step} {address front back : Address} {segment : Segment}
  {segments rest : List Segment}

theorem putAt_key {entries : Entries Tree} {name : String} (hfind : Entries.find? entries name = some child) :
    putAt new (.key name :: address) (object entries) =
      object (Entries.insert name (putAt new address child) entries) := by
  rw [putAt, Entries.modify, hfind]

theorem putAt_position {items : List Tree} {index : Nat} (hitem : items[index]? = some child) :
    putAt new (.position index :: address) (array items) = array (items.set index (putAt new address child)) := by
  rw [putAt, List.modify_eq_set, hitem, Option.getD_some]

theorem putAt_cons (hchild : tree.under? step = some child) :
    putAt new (step :: address) tree = putAt (putAt new address child) [step] tree := by
  cases step with
  | key name =>
      cases tree with
      | object entries =>
          have hfind : Entries.find? entries name = some child := hchild
          rw [putAt_key hfind, putAt_key hfind, putAt]
      | _ => cases hchild
  | position index =>
      cases tree with
      | array items =>
          have hitem : items[index]? = some child := hchild
          rw [putAt_position hitem, putAt_position hitem, putAt]
      | _ => cases hchild

theorem putAt_append (hnode : tree.at? front = some node) :
    putAt new (front ++ back) tree = putAt (putAt new back node) front tree := by
  induction front generalizing tree with
  | nil =>
      obtain rfl : tree = node := Option.some.inj hnode
      rfl
  | cons step front ih =>
      obtain ⟨child, hchild, hnode⟩ := at?_cons_eq_some.mp hnode
      rw [List.cons_append, putAt_cons hchild, ih hnode, ← putAt_cons hchild]

theorem putAt_self (hnode : tree.at? address = some node) : putAt node address tree = tree := by
  induction address generalizing tree with
  | nil => exact (Option.some.inj hnode).symm
  | cons step address ih =>
      obtain ⟨child, hchild, hnode⟩ := at?_cons_eq_some.mp hnode
      rw [putAt_cons hchild, ih hnode]
      cases step with
      | key name =>
          cases tree with
          | object entries => rw [putAt_key hchild, putAt, Entries.insert_of_find? hchild]
          | _ => cases hchild
      | position index =>
          cases tree with
          | array items =>
              obtain ⟨hlt, hitem⟩ := List.getElem?_eq_some_iff.mp hchild
              rw [putAt_position hchild, putAt, ← hitem, List.set_getElem_self]
          | _ => cases hchild

theorem assigned_putAt (hnode : tree.at? address = some node) (new : Tree) :
    Assigned address new tree (new.putAt address tree) := by
  induction address generalizing tree with
  | nil => exact .here new tree
  | cons step address ih =>
      obtain ⟨child, hchild, hnode⟩ := at?_cons_eq_some.mp hnode
      have hbelow : Assigned address new ((tree.under? step).getD null) (new.putAt address child) := by
        rw [hchild, Option.getD_some]
        exact ih hnode
      cases step with
      | key name =>
          cases tree with
          | object entries =>
              rw [putAt_key hchild]
              exact .below (sameBut_insert name _ entries) (Entries.find?_insert_self name _ entries) hbelow
          | _ => cases hchild
      | position index =>
          cases tree with
          | array items =>
              obtain ⟨hlt, -⟩ := List.getElem?_eq_some_iff.mp hchild
              rw [putAt_position hchild]
              exact .below (sameBut_set (padTo_of_lt hlt) _) (List.getElem?_set_self hlt) hbelow
          | _ => cases hchild

theorem neverMaps_of_descend? (hdescend : tree.descend? segments = some node) : tree.neverMaps segments = true := by
  induction segments generalizing tree with
  | nil => rfl
  | cons segment segments ih =>
      obtain ⟨child, hchild, hbelow⟩ := descend?_cons_eq_some.mp hdescend
      have hmaps : tree.maps segment = false := by
        cases segment with
        | property name deep =>
            cases tree with
            | array items => cases deep <;> cases hchild
            | _ => rfl
        | _ => rfl
      rw [neverMaps, hmaps, hchild, Option.all_some, ih hbelow]
      rfl

theorem descend?_append_bind (segments rest : List Segment) (tree : Tree) :
    tree.descend? (segments ++ rest) = (tree.descend? segments).bind (descend? rest) := by
  induction segments generalizing tree with
  | nil => rfl
  | cons segment segments ih =>
      rw [List.cons_append, descend?, descend?]
      cases tree.child? segment with
      | none => rfl
      | some child => exact ih child

theorem at?_of_descend? (hplain : ∀ segment ∈ segments, segment.isPlain = true)
    (hdescend : tree.descend? segments = some node) : tree.at? (tree.addressOf segments) = some node := by
  rw [at?_addressOf hplain (neverMaps_of_descend? hdescend), hdescend]

theorem child?_putAt (hplain : segment.isPlain = true) (hchild : tree.child? segment = some child) :
    (new.putAt [segment.stepFrom tree] tree).child? segment = some new := by
  rcases Segment.exists_of_isPlain hplain with ⟨name, rfl⟩ | ⟨number, rfl⟩
  · cases tree with
    | object entries =>
        rw [Segment.stepFrom, putAt_key hchild]
        exact Entries.find?_insert_self name new entries
    | _ => cases hchild
  · cases tree with
    | object entries =>
        rw [Segment.stepFrom, putAt_key hchild]
        exact Entries.find?_insert_self (toString number) new entries
    | array items =>
        obtain ⟨position, hresolve, hitem⟩ := Option.bind_eq_some_iff.mp hchild
        rw [Segment.stepFrom, arrayPosition_of_resolveIndex hresolve, putAt_position hitem]
        simp [putAt, child?, hresolve, lt_of_resolveIndex hresolve]
    | _ => cases hchild

theorem descend?_putAt (hplain : ∀ segment ∈ segments, segment.isPlain = true)
    (hdescend : tree.descend? segments = some node) :
    (new.putAt (tree.addressOf segments) tree).descend? segments = some new := by
  induction segments generalizing tree with
  | nil => rfl
  | cons segment segments ih =>
      obtain ⟨hsegment, hsegments⟩ := List.forall_mem_cons.mp hplain
      have hunder := Segment.under?_stepFrom hsegment (maps_of_neverMaps (neverMaps_of_descend? hdescend))
      obtain ⟨child, hchild, hbelow⟩ := descend?_cons_eq_some.mp hdescend
      rw [hchild] at hunder
      rw [addressOf, hunder, Option.getD_some, putAt_cons hunder]
      exact descend?_cons_eq_some.mpr ⟨_, child?_putAt hsegment hchild, ih hsegments hbelow⟩

theorem recordFree_of_at? (hrecordFree : tree.recordFree = true) (hnode : tree.at? address = some node) :
    node.recordFree = true := by
  induction address generalizing tree with
  | nil =>
      obtain rfl : tree = node := Option.some.inj hnode
      exact hrecordFree
  | cons step address ih =>
      obtain ⟨child, hchild, hnode⟩ := at?_cons_eq_some.mp hnode
      exact ih (recordFree_of_under? hrecordFree hchild) hnode

theorem addressOf_append (hplain : ∀ segment ∈ segments, segment.isPlain = true)
    (hdescend : tree.descend? segments = some node) :
    tree.addressOf (segments ++ rest) = tree.addressOf segments ++ node.addressOf rest := by
  induction segments generalizing tree with
  | nil =>
      obtain rfl : tree = node := Option.some.inj hdescend
      rfl
  | cons segment segments ih =>
      obtain ⟨hsegment, hsegments⟩ := List.forall_mem_cons.mp hplain
      have hmaps := maps_of_neverMaps (neverMaps_of_descend? hdescend)
      obtain ⟨child, hchild, hbelow⟩ := descend?_cons_eq_some.mp hdescend
      rw [List.cons_append, addressOf, addressOf, Segment.under?_stepFrom hsegment hmaps, hchild, Option.getD_some,
        ih hsegments hbelow, List.cons_append]

end Tree

section Walking

variable {walk : Walk} {following next : Option Segment} {edit : Edit Tree} {segment : Segment}
  {segments : List Segment} {tree child node : Tree} {store : Store}

theorem Walk.atProperty_of_find? {container : Option Tree} {entries : Entries Tree} {name : String}
    (hfind : Entries.find? entries name = some child) :
    atProperty container name edit (.object entries) store =
      (enter container edit child store).map fun new => new.putAt [.key name] (.object entries) := by
  have hcontains : Entries.contains entries name = true := by rw [Entries.contains, hfind]; rfl
  have hput (new : Tree) : new.putAt [.key name] (.object entries) = .object (Entries.insert name new entries) :=
    putAt_key hfind
  simp only [atProperty, hcontains, if_true, Edit.atKey_eq_insert _ store hfind, Change.map_map, hput]

theorem Walk.step_of_child? (hplain : segment.isPlain = true) (hchild : tree.child? segment = some child) :
    walk.step following edit segment tree store =
      (enter (walk.container? following) edit child store).map fun new => new.putAt [segment.stepFrom tree] tree := by
  rcases Segment.exists_of_isPlain hplain with ⟨name, rfl⟩ | ⟨number, rfl⟩
  · cases tree with
    | object entries => exact atProperty_of_find? hchild
    | _ => cases hchild
  · cases tree with
    | object entries => exact atProperty_of_find? hchild
    | array items =>
        obtain ⟨position, hresolve, hitem⟩ := Option.bind_eq_some_iff.mp hchild
        have hput (new : Tree) : new.putAt [.position position] (.array items) = .array (items.set position new) :=
          putAt_position hitem
        simp only [step, atIndex, hresolve, Edit.atPosition_eq_set _ store hitem, Change.map_map, Segment.stepFrom,
          arrayPosition_of_resolveIndex hresolve, hput]
    | _ => cases hchild

theorem Walk.step_of_child?_eq_none (hcontainer : walk.container? following = none) (hplain : segment.isPlain = true)
    (hrecordFree : tree.recordFree = true) (hmaps : tree.maps segment = false) (hchild : tree.child? segment = none) :
    walk.step following edit segment tree store = ⟨tree, store, .ok false⟩ := by
  have hmissing {entries : Entries Tree} {name : String} (hfind : Entries.find? entries name = none) :
      atProperty none name edit (.object entries) store = ⟨.object entries, store, .ok false⟩ := by
    simp [atProperty, Entries.contains, hfind]
  rcases Segment.exists_of_isPlain hplain with ⟨name, rfl⟩ | ⟨number, rfl⟩
  · rw [step, hcontainer]
    cases tree with
    | object entries => exact hmissing hchild
    | array items => cases hmaps
    | record handle entries => cases hrecordFree
    | _ => rfl
  · rw [step, hcontainer]
    cases tree with
    | object entries => exact hmissing hchild
    | array items =>
        cases hresolve : resolveIndex items.length number with
        | none => simp [atIndex, hresolve]
        | some position =>
            have hitem : items[position]? = none := by simpa [child?, hresolve] using hchild
            exact absurd (lt_of_resolveIndex hresolve) (Nat.not_lt.mpr (List.getElem?_eq_none_iff.mp hitem))
    | record handle entries => cases hrecordFree
    | _ => rfl

/-- A walk that builds nothing edits the node that the segments lead to, in its place. -/
theorem Walk.visit_of_descend? (hbuilding : walk.building = .nothing)
    (hplain : ∀ segment ∈ segments, segment.isPlain = true) (hdescend : tree.descend? segments = some node) :
    walk.visit next edit segments tree store =
      (edit node store).map fun new => new.putAt (tree.addressOf segments) tree := by
  induction segments generalizing tree with
  | nil =>
      obtain rfl : tree = node := Option.some.inj hdescend
      rfl
  | cons segment segments ih =>
      obtain ⟨hsegment, hsegments⟩ := List.forall_mem_cons.mp hplain
      have hunder := Segment.under?_stepFrom hsegment (maps_of_neverMaps (neverMaps_of_descend? hdescend))
      obtain ⟨child, hchild, hbelow⟩ := descend?_cons_eq_some.mp hdescend
      rw [hchild] at hunder
      have hput (new : Tree) : new.putAt (segment.stepFrom tree :: child.addressOf segments) tree =
          (new.putAt (child.addressOf segments) child).putAt [segment.stepFrom tree] tree := putAt_cons hunder
      rw [visit, step_of_child? hsegment hchild, container?_eq_none hbuilding, enter_none, ih hsegments hbelow,
        Change.map_map, addressOf, hunder, Option.getD_some, funext hput]

theorem Walk.visit_of_descend?_eq_none (hbuilding : walk.building = .nothing)
    (hplain : ∀ segment ∈ segments, segment.isPlain = true) (hrecordFree : tree.recordFree = true)
    (hnever : tree.neverMaps segments = true) (hdescend : tree.descend? segments = none) :
    walk.visit next edit segments tree store = ⟨tree, store, .ok false⟩ := by
  have hcontainer := container?_eq_none hbuilding
  induction segments generalizing tree with
  | nil => cases hdescend
  | cons segment segments ih =>
      obtain ⟨hsegment, hsegments⟩ := List.forall_mem_cons.mp hplain
      have hmaps := maps_of_neverMaps hnever
      rw [visit]
      cases hchild : tree.child? segment with
      | none => exact step_of_child?_eq_none (hcontainer _) hsegment hrecordFree hmaps hchild
      | some child =>
          have hbelow : child.descend? segments = none := by rwa [descend?, hchild] at hdescend
          have haddress : tree.at? [segment.stepFrom tree] = some child := by
            rw [at?_cons ((Segment.under?_stepFrom hsegment hmaps).trans hchild), at?]
          rw [step_of_child? hsegment hchild, hcontainer, enter_none,
            ih hsegments (everywhere_of_child? hrecordFree hchild) (neverMaps_of_child? hnever hchild) hbelow]
          simp only [Change.map, putAt_self haddress]

end Walking

/-! ### The whole path -/

section Whole

variable {path : Path} {before : List Segment} {last : Segment} {root : Tree} {items : List Tree} {store : Store}

theorem Walk.removeChildren_of_find? {walk : Walk} {condition : Filter} {name : String} {entries : Entries Tree}
    (hfind : Entries.find? entries name = some (.array items)) :
    walk.removeChildren condition name (.object entries) store =
      (walk.removeMatches condition (.array items) store).map fun new => new.putAt [.key name] (.object entries) := by
  have hput (new : Tree) : new.putAt [.key name] (.object entries) = .object (Entries.insert name new entries) :=
    putAt_key hfind
  rw [removeChildren, removeUnder, hfind, funext hput]
  rfl

/-- A filter after a property is carried to the holder of the property, and removes the same from there. -/
theorem Path.visit_removeChildren {walk : Walk} {next : Option Segment} {condition : Filter} {name : HashedName}
    (hbuilding : walk.building = .nothing) (hplain : ∀ segment ∈ before, segment.isPlain = true)
    (hreaches : root.descend? (before ++ [.property name false]) = some (.array items)) :
    walk.visit next (walk.removeChildren condition name) before root store =
      (walk.removeMatches condition (.array items) store).map fun new =>
        new.putAt (root.addressOf (before ++ [.property name false])) root := by
  rw [descend?_append_bind, Option.bind_eq_some_iff] at hreaches
  obtain ⟨holder, hholder, hproperty⟩ := hreaches
  obtain ⟨child, hchild, hitems⟩ := descend?_cons_eq_some.mp hproperty
  obtain rfl : child = .array items := Option.some.inj hitems
  cases holder with
  | object entries =>
      have hput (new : Tree) : (new.putAt [.key name] (.object entries)).putAt (root.addressOf before) root =
          new.putAt (root.addressOf (before ++ [.property name false])) root := by
        rw [addressOf_append hplain hholder, ← putAt_append (at?_of_descend? hplain hholder)]
        rfl
      rw [Walk.visit_of_descend? hbuilding hplain hholder, Walk.removeChildren_of_find? hchild, Change.map_map,
        funext hput]
  | _ => cases hchild

theorem Path.remove_eq_removeLast (hsegments : path.segments = before ++ [last])
    (hplain : ∀ segment ∈ before, segment.isPlain = true) (hselection : last.isSelection = true)
    (hreaches : root.descend? before = some (.array items)) :
    path.remove root store =
      ((path.walk root .nothing).removeLast last (.array items) store).map fun new =>
        new.putAt (root.addressOf before) root := by
  have hroot : root.isNull = false := by
    cases root with
    | null =>
        have hnull := at?_null_eq_some (at?_of_descend? hplain hreaches)
        cases hnull.2
    | _ => rfl
  have hgeneral : path.editLast .nothing .removeRoot Walk.removeLast root store =
      ((path.walk root .nothing).removeLast last (.array items) store).map fun new =>
        new.putAt (root.addressOf before) root := by
    simp only [editLast, hroot, hsegments, List.getLast?_concat, List.dropLast_concat]
    exact Walk.visit_of_descend? rfl hplain hreaches
  cases last with
  | filter condition =>
      rcases List.eq_nil_or_concat before with rfl | ⟨init, segment, rfl⟩
      · rw [remove, hsegments]
        exact hgeneral
      · rw [List.concat_eq_append] at *
        have hreverse : path.segments.reverse = .filter condition :: segment :: init.reverse := by simp [hsegments]
        rcases Segment.exists_of_isPlain (hplain segment (by simp)) with ⟨name, rfl⟩ | ⟨number, rfl⟩
        · simp only [remove, hreverse, hroot, List.reverse_reverse]
          exact visit_removeChildren rfl (fun segment hmem => hplain segment (List.mem_append_left _ hmem)) hreaches
        · rw [remove, hreverse]
          exact hgeneral
  | index number => rw [remove, hsegments, List.reverse_append]; exact hgeneral
  | indices numbers => rw [remove, hsegments, List.reverse_append]; exact hgeneral
  | slice start last step => rw [remove, hsegments, List.reverse_append]; exact hgeneral
  | _ => cases hselection

theorem Segment.applyAll_append {dropNulls : Bool} (segments rest : List Segment) (tree : Tree) :
    Segment.applyAll root dropNulls (segments ++ rest) tree = (do
      Segment.applyAll root dropNulls rest (← Segment.applyAll root dropNulls segments tree)) := by
  induction segments generalizing tree with
  | nil => rw [List.nil_append, Segment.applyAll]; rfl
  | cons segment segments ih =>
      rw [List.cons_append, Segment.applyAll, Segment.applyAll]
      cases segment.apply root dropNulls tree with
      | error fault => rfl
      | ok found => exact ih found

theorem Segment.applyAll_singleton {dropNulls : Bool} (segment : Segment) (tree : Tree) :
    Segment.applyAll root dropNulls [segment] tree = segment.apply root dropNulls tree := by
  rw [Segment.applyAll]
  cases segment.apply root dropNulls tree with
  | error fault => rfl
  | ok found => exact Segment.applyAll.eq_1 root dropNulls found

theorem Segment.apply_items {dropNulls : Bool} (hselection : last.isSelection = true) (hlisting : last.isListing = true)
    (hfault : last.fault? root dropNulls items = none) :
    ∃ answer, last.apply root dropNulls (.array items) = .ok answer ∧
      answer.spliced true = last.picked root dropNulls items := by
  cases last with
  | slice start last step =>
      have hstep : 0 < step := of_decide_eq_true hselection
      have hlisted : ((slicePositions items.length start last step).getD []).filterMap (items[·]?) =
          (Segment.slice start last step).picked root dropNulls items := by
        refine filterMap_getElem?_eq (pairwise_slicePositions hstep items.length start last) fun position => ?_
        rw [mem_slicePositions hstep]
        simp [Segment.picks, exists_getElem?_iff]
      refine ⟨_, by rw [Segment.apply], ?_⟩
      rw [← hlisted, Tree.slice]
      cases slicePositions items.length start last step <;> rfl
  | filter condition =>
      have hfault' : firstFault? (condition.holds root dropNulls ·) items = none := hfault
      refine ⟨.array _, ?_, (Segment.picked_filter condition).symm⟩
      rw [Segment.apply, filterTree, selectItems_eq, hfault']
      rfl
  | _ => cases hlisting

/-- **What is picked is what is removed, and what is listed.** Let a plain path lead to an array, and end in an index, a
list of indices, a slice or a filter. The removal keeps the items of the array that the last segment does not pick, in
their order, changes nothing else, and tells whether any was picked. Only a filter can fail, if it cannot be tested on
some item of the document as it is; then nothing has changed. The value of a path that ends in a slice or a filter lists
the items that are removed. A path has to have its references noted for this, as compiled paths have. -/
theorem Path.remove_selection (hsegments : path.segments = before ++ [last]) (hnotes : path.NotesReferences)
    (hplain : ∀ segment ∈ before, segment.isPlain = true) (hselection : last.isSelection = true)
    (hrecordFree : root.recordFree = true) (hreaches : root.descend? before = some (.array items)) (store : Store) :
    path.remove root store =
        (match last.fault? root path.dropNulls items with
        | some fault => ⟨root, store, .error fault⟩
        | none =>
          ⟨(Tree.array (last.spared root path.dropNulls items)).putAt (root.addressOf before) root, store,
            .ok !(last.picked root path.dropNulls items).isEmpty⟩) ∧
      (last.isListing = true → last.fault? root path.dropNulls items = none →
        ∃ answer, path.eval root = .ok answer ∧ answer.spliced true = last.picked root path.dropNulls items) := by
  have haddress := at?_of_descend? hplain hreaches
  have hitems := (everywhere_array.mp (recordFree_of_at? hrecordFree haddress)).2
  constructor
  · have htest : ∀ condition, last = .filter condition → ∀ item ∈ items,
        (path.walk root .nothing).accepts condition item store = condition.holds root path.dropNulls item := by
      rintro condition rfl item hitem
      have hnoted : condition.refers = true → path.refers = true := fun hrefers =>
        hnotes (List.any_eq_true.mpr ⟨.filter condition, by simp [hsegments], hrefers⟩)
      exact accepts_walk hnoted hrecordFree .nothing (hitems item hitem) store
    rw [remove_eq_removeLast hsegments hplain hselection hreaches, Walk.removeLast_items hselection htest]
    cases last.fault? root path.dropNulls items with
    | some fault => simp only [Change.map, putAt_self haddress]
    | none => rfl
  · intro hlisting hfault
    have hbefore : Segment.applyAll root path.dropNulls before root = .ok (.array items) :=
      Segment.applyAll_of_descend? hplain hreaches fun _ _ _ => rfl
    obtain ⟨answer, happly, hanswer⟩ := Segment.apply_items hselection hlisting hfault
    refine ⟨answer, ?_, hanswer⟩
    rw [eval, hsegments, Segment.applyAll_append, hbefore]
    exact (Segment.applyAll_singleton last _).trans happly

/-- The limit that the filter refers to stands in the document itself; what has no number stays. -/
theorem Path.remove_selection_limit :
    let condition := Filter.reference (.property "n") .gt (.mk "$.limit" [.property "limit" false] false true)
    let path := Path.mk "$.rows[?(@.n > $.limit)]" [.property "rows" false, .filter condition] true true
    let row (n : Int) := Tree.object [("n", .integer n)]
    let root := Tree.object [("limit", .integer 1), ("rows", .array [row 2, row 1, .string "x", row 3])]
    path.segments = [.property "rows" false] ++ [.filter condition] ∧ root.recordFree = true ∧
      root.descend? [.property "rows" false] = some (.array [row 2, row 1, .string "x", row 3]) ∧
      path.remove root Store.empty =
        ⟨.object [("limit", .integer 1), ("rows", .array [row 1, .string "x"])], Store.empty, .ok true⟩ ∧
      ∃ answer, path.eval root = .ok answer ∧ answer.spliced true = [row 2, row 3] := by
  intro condition path row root
  have hplain : ∀ segment ∈ [Segment.property "rows" false], segment.isPlain = true := by simp [Segment.isPlain]
  have hsegments : path.segments = [.property "rows" false] ++ [.filter condition] := rfl
  have hrecordFree : root.recordFree = true := rfl
  have hreaches : root.descend? [.property "rows" false] = some (.array [row 2, row 1, .string "x", row 3]) := rfl
  obtain ⟨hremove, hlisted⟩ := remove_selection hsegments (fun _ => rfl) hplain rfl hrecordFree hreaches Store.empty
  exact ⟨hsegments, hrecordFree, hreaches, hremove, hlisted rfl rfl⟩

end Whole

end TreeQuery
