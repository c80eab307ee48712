import TreeQuery.Listing
import TreeQuery.Proofs.Tree.Slots

/-!
# Nodes in document order

The nodes that are not null with their addresses, and listings as the one insertion of each of them under the text of
its address.
-/

namespace TreeQuery

namespace Tree

mutual

/-- The nodes that are not null, each in front of those below it. -/
def nodes : Tree → List (Address × Tree)
  | null => []
  | array items => ([], array items) :: nodesOfItems 0 items
  | object entries => ([], object entries) :: nodesOfEntries entries
  | tree => [([], tree)]

def nodesOfItems : Nat → List Tree → List (Address × Tree)
  | _, [] => []
  | position, item :: items => (nodes item).map (inside (.position position)) ++ nodesOfItems (position + 1) items

def nodesOfEntries : List (String × Tree) → List (Address × Tree)
  | [] => []
  | (key, value) :: entries => (nodes value).map (inside (.key key)) ++ nodesOfEntries entries

end

variable {tree child node : Tree} {step : Step} {address : Address}

theorem nodes_of_isNull (hnull : tree.isNull = true) : nodes tree = [] := by
  cases tree <;> first | rfl | cases hnull

theorem nodesOfItems_eq (items : List Tree) (position : Nat) :
    nodesOfItems position items =
      (items.zipIdx position).flatMap fun item => (nodes item.1).map (inside (.position item.2)) := by
  induction items generalizing position with
  | nil => rfl
  | cons item items ih => rw [nodesOfItems, ih, List.zipIdx_cons, List.flatMap_cons]

theorem nodesOfEntries_eq (entries : Entries Tree) :
    nodesOfEntries entries = entries.flatMap fun entry => (nodes entry.2).map (inside (.key entry.1)) := by
  induction entries with
  | nil => rfl
  | cons entry entries ih => rw [nodesOfEntries, ih, List.flatMap_cons]

theorem nodes_eq (hnull : tree.isNull = false) :
    nodes tree = ([], tree) :: tree.steps.flatMap fun child => (nodes child.2).map (inside child.1) := by
  cases tree with
  | null => cases hnull
  | array items => rw [nodes, nodesOfItems_eq, steps, List.flatMap_map]
  | object entries => rw [nodes, nodesOfEntries_eq, steps, List.flatMap_map]
  | _ => rfl

theorem isNull_of_under? (hchild : tree.under? step = some child) : tree.isNull = false := by
  cases tree with
  | null => cases step <;> cases hchild
  | _ => rfl

theorem isNull_of_at? (hat : tree.at? address = some node) (hnull : node.isNull = false) : tree.isNull = false := by
  cases address with
  | nil =>
      obtain rfl := Option.some.inj hat
      exact hnull
  | cons step address =>
      obtain ⟨child, hchild, -⟩ := at?_cons_eq_some.mp hat
      exact isNull_of_under? hchild

theorem mem_nodes (hdistinct : tree.keysDistinct = true) :
    (address, node) ∈ nodes tree ↔ tree.at? address = some node ∧ node.isNull = false := by
  induction tree using steps_induction generalizing address with
  | node tree ih =>
      cases hnull : tree.isNull with
      | true =>
          rw [nodes_of_isNull hnull]
          refine iff_of_false List.not_mem_nil ?_
          rintro ⟨hat, hnode⟩
          rw [isNull_of_at? hat hnode] at hnull
          cases hnull
      | false =>
          rw [nodes_eq hnull, List.mem_cons, List.mem_flatMap]
          constructor
          · rintro (hroot | ⟨⟨step, child⟩, hmem, hbelow⟩)
            · obtain ⟨rfl, rfl⟩ := Prod.mk.inj hroot
              exact ⟨rfl, hnull⟩
            · have hchild := (mem_steps hdistinct).mp hmem
              obtain ⟨⟨rest, found⟩, hrest, heq⟩ := List.mem_map.mp hbelow
              obtain ⟨rfl, rfl⟩ := Prod.mk.inj heq
              rw [at?_cons hchild]
              exact (ih _ hmem (keysDistinct_of_under? hdistinct hchild)).mp hrest
          · rintro ⟨hat, hnode⟩
            cases address with
            | nil =>
                obtain rfl := Option.some.inj hat
                exact .inl rfl
            | cons step address =>
                obtain ⟨child, hchild, hat⟩ := at?_cons_eq_some.mp hat
                have hmem := (mem_steps hdistinct).mpr hchild
                have hrest := (ih _ hmem (keysDistinct_of_under? hdistinct hchild)).mpr ⟨hat, hnode⟩
                exact .inr ⟨_, hmem, List.mem_map_of_mem hrest⟩

theorem nodup_nodes (hdistinct : tree.keysDistinct = true) : ((nodes tree).map Prod.fst).Nodup := by
  induction tree using steps_induction with
  | node tree ih =>
      cases hnull : tree.isNull with
      | true =>
          rw [nodes_of_isNull hnull]
          exact List.nodup_nil
      | false =>
          rw [nodes_eq hnull, List.map_cons, List.nodup_cons]
          constructor
          · intro hroot
            obtain ⟨slot, hslot, hnil⟩ := List.mem_map.mp hroot
            obtain ⟨child, -, hbelow⟩ := List.mem_flatMap.mp hslot
            have hstep := head?_of_mem_inside hbelow
            rw [hnil] at hstep
            cases hstep
          · refine nodup_flatMap_steps hdistinct (fun _ => head?_of_mem_inside) fun child hmem => nodup_inside ?_
            exact ih child hmem (keysDistinct_of_under? hdistinct ((mem_steps hdistinct).mp hmem))

/-- What lies below a node is smaller. -/
theorem sizeOf_under? (hchild : tree.under? step = some child) : sizeOf child < sizeOf tree := by
  cases tree with
  | array items =>
      cases step with
      | key name => cases hchild
      | position index =>
          have hlt := List.sizeOf_lt_of_mem (List.mem_of_getElem? hchild)
          rw [array.sizeOf_spec]
          omega
  | object entries =>
      cases step with
      | key name =>
          have hlt := List.sizeOf_lt_of_mem (Entries.mem_of_find? hchild)
          rw [Prod.mk.sizeOf_spec] at hlt
          rw [object.sizeOf_spec]
          omega
      | position index => cases hchild
  | _ => cases step <;> cases hchild

theorem sizeOf_at? (hat : tree.at? address = some node) : sizeOf node ≤ sizeOf tree := by
  induction address generalizing tree with
  | nil =>
      obtain rfl := Option.some.inj hat
      exact Nat.le_refl _
  | cons step address ih =>
      obtain ⟨child, hchild, hat⟩ := at?_cons_eq_some.mp hat
      exact Nat.le_trans (ih hat) (Nat.le_of_lt (sizeOf_under? hchild))

theorem ne_of_at?_cons (hat : tree.at? (step :: address) = some node) : node ≠ tree := by
  rintro rfl
  obtain ⟨child, hchild, hat⟩ := at?_cons_eq_some.mp hat
  have hle := sizeOf_at? hat
  have hlt := sizeOf_under? hchild
  omega

end Tree

/-! ### Listings as insertions -/

/-- A step as it stands in a listed path. -/
def Step.text : Step → String
  | key name => escapeKey name
  | position index => toString index

/-- The path of an address below a path. -/
def Address.textBelow (path : String) (address : Address) : String :=
  address.foldl (fun path step => Listing.childPath path step.text) path

def Address.text (address : Address) : String := textBelow "/" address

namespace Listing

/-- Adds nodes one after another under the texts of their addresses below a path. -/
def addAll (path : String) (nodes : List (Address × Tree)) (listing : Listing) : Listing :=
  nodes.foldl (fun listing node => listing.add (Address.textBelow path node.1) node.2) listing

variable {path : String} {listing : Listing}

theorem addAll_append (nodes others : List (Address × Tree)) :
    addAll path (nodes ++ others) listing = addAll path others (addAll path nodes listing) :=
  List.foldl_append

theorem addAll_inside (step : Step) (nodes : List (Address × Tree)) :
    addAll path (nodes.map (Tree.inside step)) listing = addAll (childPath path step.text) nodes listing :=
  List.foldl_map

theorem collectItems_eq {items : List Tree}
    (hitems : ∀ item ∈ items, ∀ path listing, collect path item listing = addAll path item.nodes listing)
    (position : Nat) :
    collectItems path position items listing = addAll path (Tree.nodesOfItems position items) listing := by
  induction items generalizing position listing with
  | nil => rfl
  | cons item items ih =>
      obtain ⟨hitem, hothers⟩ := List.forall_mem_cons.mp hitems
      rw [collectItems, Tree.nodesOfItems, addAll_append, addAll_inside, ih hothers, hitem]
      rfl

theorem collectEntries_eq {entries : Entries Tree}
    (hentries : ∀ entry ∈ entries, ∀ path listing, collect path entry.2 listing = addAll path entry.2.nodes listing) :
    collectEntries path entries listing = addAll path (Tree.nodesOfEntries entries) listing := by
  induction entries generalizing listing with
  | nil => rfl
  | cons entry entries ih =>
      obtain ⟨hentry, hothers⟩ := List.forall_mem_cons.mp hentries
      rw [collectEntries, Tree.nodesOfEntries, addAll_append, addAll_inside, ih hothers, hentry]
      rfl

/-- Listing a tree without records adds its nodes one after another. -/
theorem collect_eq {tree : Tree} (hrecords : tree.recordFree = true) (path : String) (listing : Listing) :
    collect path tree listing = addAll path tree.nodes listing := by
  induction tree using Tree.induction generalizing path listing with
  | scalar tree hscalar => cases tree <;> first | rfl | cases hscalar
  | array items ih =>
      have hitems := (Tree.everywhere_array.mp hrecords).2
      rw [collect, Tree.nodes, collectItems_eq fun item hmem => ih item hmem (hitems item hmem)]
      rfl
  | object entries ih =>
      have hentries := (Tree.everywhere_object.mp hrecords).2
      rw [collect, Tree.nodes, collectEntries_eq fun entry hmem => ih entry hmem (hentries entry hmem)]
      rfl
  | record handle entries _ => cases hrecords

theorem nodes_addAll (nodes : List (Address × Tree)) :
    (addAll path nodes listing).nodes =
      (nodes.map fun node => (Address.textBelow path node.1, node.2)).foldl
        (fun entries member => Entries.insert member.1 member.2 entries) listing.nodes := by
  induction nodes generalizing listing with
  | nil => rfl
  | cons node nodes ih => exact ih

end Listing

/-- The nodes with the texts of their addresses. -/
def Tree.namedNodes (tree : Tree) : List (String × Tree) := tree.nodes.map fun node => (node.1.text, node.2)

theorem Tree.listing_eq_ofList {tree : Tree} (hrecords : tree.recordFree = true) :
    tree.listing = Entries.ofList tree.namedNodes := by
  rw [Tree.listing, Listing.collect_eq hrecords, Listing.nodes_addAll]
  rfl

end TreeQuery
