import TreeQuery.Proofs.Tree.Address

/-!
# Slots of a name

The entries of one name that do not lie inside each other, listed in document order with their addresses. Apart from
that, entries at any chosen addresses can be rewritten or deleted.
-/

namespace TreeQuery.Tree

/-- An entry of the name that lies in no other entry of the name. -/
structure IsSlot (name : String) (tree : Tree) (address : Address) (value : Tree) : Prop where
  outermost : ∃ holder, address = holder ++ [.key name] ∧ .key name ∉ holder
  holds : tree.at? address = some value

/-- An address below a step, with what is found there. -/
def inside (step : Step) (slot : Address × Tree) : Address × Tree := (step :: slot.1, slot.2)

mutual

def slots (name : String) : Tree → List (Address × Tree)
  | array items => slotsOfItems name 0 items
  | object entries => slotsOfEntries name entries
  | _ => []

def slotsOfItems (name : String) : Nat → List Tree → List (Address × Tree)
  | _, [] => []
  | position, item :: items =>
    (slots name item).map (inside (.position position)) ++ slotsOfItems name (position + 1) items

def slotsOfEntries (name : String) : List (String × Tree) → List (Address × Tree)
  | [] => []
  | (key, value) :: entries =>
    (if key = name then [([.key key], value)] else (slots name value).map (inside (.key key))) ++
      slotsOfEntries name entries

end

mutual

/-- The entries at the chosen addresses get a new value, or are deleted if there is none. What lies inside them is not
looked at. -/
def rewriteEntries (chosen : Address → Bool) (new : Option Tree) : Tree → Tree
  | array items => array (rewriteInItems chosen new 0 items)
  | object entries => object (rewriteInEntries chosen new entries)
  | tree => tree

def rewriteInItems (chosen : Address → Bool) (new : Option Tree) : Nat → List Tree → List Tree
  | _, [] => []
  | position, item :: items =>
    rewriteEntries (fun address => chosen (.position position :: address)) new item ::
      rewriteInItems chosen new (position + 1) items

def rewriteInEntries (chosen : Address → Bool) (new : Option Tree) : List (String × Tree) → List (String × Tree)
  | [] => []
  | (key, value) :: entries =>
    (if chosen [.key key] then new.toList.map fun value => (key, value)
      else [(key, rewriteEntries (fun address => chosen (.key key :: address)) new value)]) ++
      rewriteInEntries chosen new entries

end

variable {name key : String} {tree child value : Tree} {items : List Tree} {entries : Entries Tree} {step : Step}
  {address : Address} {chosen : Address → Bool} {new : Option Tree}

/-- What a name has below one child: the child itself, if it is an entry of the name. -/
def slotsAt (name : String) (step : Step) (child : Tree) : List (Address × Tree) :=
  if step = .key name then [([step], child)] else (slots name child).map (inside step)

/-- The children of a node with the steps to them. -/
def steps : Tree → List (Step × Tree)
  | array items => items.zipIdx.map fun item => (.position item.2, item.1)
  | object entries => entries.map fun entry => (.key entry.1, entry.2)
  | _ => []

theorem slots_eq (name : String) (tree : Tree) :
    slots name tree = tree.steps.flatMap fun child => slotsAt name child.1 child.2 := by
  cases tree with
  | array items =>
      have hitems : ∀ position, slotsOfItems name position items =
          (items.zipIdx position).flatMap fun item => slotsAt name (.position item.2) item.1 := by
        induction items with
        | nil => intro position; rfl
        | cons item items ih =>
            intro position
            rw [slotsOfItems, ih, List.zipIdx_cons, List.flatMap_cons, slotsAt, if_neg (by simp)]
      rw [slots, hitems, steps, List.flatMap_map]
  | object entries =>
      rw [slots, steps, List.flatMap_map]
      induction entries with
      | nil => rfl
      | cons entry entries ih =>
          obtain ⟨key, value⟩ := entry
          rw [slotsOfEntries, ih, List.flatMap_cons, slotsAt]
          by_cases hkey : key = name <;> simp [hkey]
  | _ => rfl

theorem mem_steps (hdistinct : tree.keysDistinct = true) :
    (step, child) ∈ tree.steps ↔ tree.under? step = some child := by
  cases tree with
  | array items =>
      cases step with
      | key name => simp [steps, under?]
      | position index =>
          rw [steps, under?]
          constructor
          · intro hmem
            obtain ⟨⟨item, position⟩, hitem, heq⟩ := List.mem_map.mp hmem
            obtain ⟨hposition, rfl⟩ := Prod.mk.inj heq
            obtain rfl := Step.position.inj hposition
            exact List.mem_zipIdx_iff_getElem?.mp hitem
          · intro hitem
            exact List.mem_map.mpr ⟨(child, index), List.mem_zipIdx_iff_getElem?.mpr hitem, rfl⟩
  | object entries =>
      have hnodup := (keysDistinct_object.mp hdistinct).1
      cases step with
      | key name =>
          rw [steps, under?]
          constructor
          · intro hmem
            obtain ⟨⟨key, value⟩, hentry, heq⟩ := List.mem_map.mp hmem
            obtain ⟨hkey, rfl⟩ := Prod.mk.inj heq
            obtain rfl := Step.key.inj hkey
            exact Entries.find?_of_mem hnodup hentry
          · intro hfind
            exact List.mem_map.mpr ⟨_, Entries.mem_of_find? hfind, rfl⟩
      | position index => simp [steps, under?]
  | _ => cases step <;> simp [steps, under?]

theorem nodup_steps (hdistinct : tree.keysDistinct = true) : (tree.steps.map Prod.fst).Nodup := by
  cases tree with
  | array items =>
      have hpositions : (steps (array items)).map Prod.fst = (List.range items.length).map Step.position := by
        rw [steps, List.map_map, List.range_eq_range', ← List.zipIdx_map_snd 0 items, List.map_map]
        rfl
      rw [hpositions, List.nodup_iff_pairwise_ne, List.pairwise_map]
      exact List.nodup_range.imp fun hne heq => hne (Step.position.inj heq)
  | object entries =>
      have hkeys : (steps (object entries)).map Prod.fst = (Entries.keys entries).map Step.key := by
        rw [steps, Entries.keys, List.map_map, List.map_map]
        rfl
      rw [hkeys, List.nodup_iff_pairwise_ne, List.pairwise_map]
      exact (keysDistinct_object.mp hdistinct).1.imp fun hne heq => hne (Step.key.inj heq)
  | _ => exact List.nodup_nil

theorem keysDistinct_of_under? (hdistinct : tree.keysDistinct = true) (hchild : tree.under? step = some child) :
    child.keysDistinct = true := by
  cases tree with
  | array items =>
      cases step with
      | key name => cases hchild
      | position index => exact keysDistinct_array.mp hdistinct child (List.mem_of_getElem? hchild)
  | object entries =>
      cases step with
      | key name => exact (keysDistinct_object.mp hdistinct).2 _ (Entries.mem_of_find? hchild)
      | position index => cases hchild
  | _ => cases step <;> cases hchild

/-- Induction over a tree by the steps to its children. -/
theorem steps_induction {motive : Tree → Prop}
    (node : ∀ tree, (∀ child ∈ tree.steps, motive child.2) → motive tree) (tree : Tree) : motive tree := by
  induction tree using Tree.induction with
  | scalar tree hscalar =>
      have hnone : tree.steps = [] := by cases tree <;> first | rfl | cases hscalar
      exact node tree fun child hchild => absurd hchild (hnone ▸ List.not_mem_nil)
  | array items ih =>
      refine node _ fun child hchild => ?_
      obtain ⟨⟨item, position⟩, hitem, rfl⟩ := List.mem_map.mp hchild
      exact ih item (List.mem_of_getElem? (List.mem_zipIdx_iff_getElem?.mp hitem))
  | object entries ih =>
      refine node _ fun child hchild => ?_
      obtain ⟨entry, hentry, rfl⟩ := List.mem_map.mp hchild
      exact ih entry hentry
  | record handle entries _ => exact node _ fun child hchild => by cases hchild

/-! ### The slots are the outermost entries -/

theorem not_isSlot_nil : ¬ IsSlot name tree [] value := by
  rintro ⟨⟨holder, hholder, -⟩, -⟩
  cases holder <;> cases hholder

theorem isSlot_key : IsSlot name tree (.key name :: address) value ↔
    address = [] ∧ tree.under? (.key name) = some value := by
  constructor
  · rintro ⟨⟨holder, hholder, houtermost⟩, hvalue⟩
    cases holder with
    | nil =>
        obtain ⟨-, rfl⟩ := List.cons.inj hholder
        obtain ⟨child, hchild, hat⟩ := at?_cons_eq_some.mp hvalue
        obtain rfl : child = value := Option.some.inj hat
        exact ⟨rfl, hchild⟩
    | cons step holder =>
        obtain ⟨rfl, -⟩ := List.cons.inj hholder
        exact absurd List.mem_cons_self houtermost
  · rintro ⟨rfl, hchild⟩
    exact ⟨⟨[], rfl, List.not_mem_nil⟩, at?_cons hchild⟩

theorem isSlot_cons (hstep : step ≠ .key name) : IsSlot name tree (step :: address) value ↔
    ∃ child, tree.under? step = some child ∧ IsSlot name child address value := by
  constructor
  · rintro ⟨⟨holder, hholder, houtermost⟩, hvalue⟩
    obtain ⟨child, hchild, hat⟩ := at?_cons_eq_some.mp hvalue
    cases holder with
    | nil =>
        obtain ⟨rfl, -⟩ := List.cons.inj hholder
        exact absurd rfl hstep
    | cons first holder =>
        obtain ⟨-, rfl⟩ := List.cons.inj hholder
        exact ⟨child, hchild, ⟨holder, rfl, fun hmem => houtermost (List.mem_cons_of_mem _ hmem)⟩, hat⟩
  · rintro ⟨child, hchild, ⟨holder, rfl, houtermost⟩, hat⟩
    refine ⟨⟨step :: holder, rfl, fun hmem => ?_⟩, (at?_cons hchild).trans hat⟩
    rcases List.mem_cons.mp hmem with heq | hmem
    · exact hstep heq.symm
    · exact houtermost hmem

theorem mem_slots (hdistinct : tree.keysDistinct = true) :
    (address, value) ∈ slots name tree ↔ IsSlot name tree address value := by
  induction tree using steps_induction generalizing address with
  | node tree ih =>
      rw [slots_eq, List.mem_flatMap]
      constructor
      · rintro ⟨⟨step, child⟩, hmem, hslot⟩
        have hchild := (mem_steps hdistinct).mp hmem
        have hbelow := keysDistinct_of_under? hdistinct hchild
        rw [slotsAt] at hslot
        split at hslot
        · next hstep =>
            obtain rfl := hstep
            obtain ⟨rfl, rfl⟩ := Prod.mk.inj (List.mem_singleton.mp hslot)
            exact isSlot_key.mpr ⟨rfl, hchild⟩
        · next hstep =>
            obtain ⟨⟨rest, found⟩, hrest, heq⟩ := List.mem_map.mp hslot
            obtain ⟨rfl, rfl⟩ := Prod.mk.inj heq
            exact (isSlot_cons hstep).mpr ⟨child, hchild, (ih _ hmem hbelow).mp hrest⟩
      · intro hslot
        cases address with
        | nil => exact absurd hslot not_isSlot_nil
        | cons step address =>
            by_cases hstep : step = .key name
            · obtain rfl := hstep
              obtain ⟨rfl, hchild⟩ := isSlot_key.mp hslot
              exact ⟨_, (mem_steps hdistinct).mpr hchild, by simp [slotsAt]⟩
            · obtain ⟨child, hchild, hbelow⟩ := (isSlot_cons hstep).mp hslot
              have hmem := (mem_steps hdistinct).mpr hchild
              have hrest := (ih _ hmem (keysDistinct_of_under? hdistinct hchild)).mpr hbelow
              refine ⟨_, hmem, ?_⟩
              rw [slotsAt, if_neg hstep]
              exact List.mem_map_of_mem hrest

theorem head?_of_mem_inside {slot : Address × Tree} {below : List (Address × Tree)}
    (hslot : slot ∈ below.map (inside step)) : slot.1.head? = some step := by
  obtain ⟨rest, -, rfl⟩ := List.mem_map.mp hslot
  rfl

theorem nodup_inside {below : List (Address × Tree)} (hbelow : (below.map Prod.fst).Nodup) :
    ((below.map (inside step)).map Prod.fst).Nodup := by
  rw [List.nodup_iff_pairwise_ne, List.pairwise_map, List.pairwise_map]
  exact (List.pairwise_map.mp hbelow).imp fun hne heq => hne (List.cons.inj heq).2

/-- Addresses below different children differ in their first step. -/
theorem nodup_flatMap_steps (hdistinct : tree.keysDistinct = true) {below : Step × Tree → List (Address × Tree)}
    (hhead : ∀ child {slot}, slot ∈ below child → slot.1.head? = some child.1)
    (hbelow : ∀ child ∈ tree.steps, ((below child).map Prod.fst).Nodup) :
    ((tree.steps.flatMap below).map Prod.fst).Nodup := by
  rw [List.nodup_iff_pairwise_ne, List.pairwise_map, List.pairwise_flatMap]
  refine ⟨fun child hmem => List.pairwise_map.mp (hbelow child hmem), ?_⟩
  refine (List.pairwise_map.mp (nodup_steps hdistinct)).imp fun hne left hleft right hright heq => hne ?_
  have hstep := hhead _ hleft
  rw [heq, hhead _ hright] at hstep
  exact (Option.some.inj hstep).symm

theorem head?_of_mem_slotsAt {slot : Address × Tree} (hslot : slot ∈ slotsAt name step child) :
    slot.1.head? = some step := by
  rw [slotsAt] at hslot
  split at hslot
  · rw [List.mem_singleton.mp hslot]
    rfl
  · exact head?_of_mem_inside hslot

theorem nodup_slots (name : String) (hdistinct : tree.keysDistinct = true) :
    ((slots name tree).map Prod.fst).Nodup := by
  induction tree using steps_induction with
  | node tree ih =>
      rw [slots_eq]
      refine nodup_flatMap_steps hdistinct (fun _ => head?_of_mem_slotsAt) fun child hmem => ?_
      rw [slotsAt]
      split
      · exact List.pairwise_singleton _ _
      · exact nodup_inside (ih child hmem (keysDistinct_of_under? hdistinct ((mem_steps hdistinct).mp hmem)))

/-! ### What is in the slots -/

theorem flatMap_inside {α : Type} (read : Tree → List α) (step : Step) (found : List (Address × Tree)) :
    ((found.map (inside step)).flatMap fun slot => read slot.2) = found.flatMap fun slot => read slot.2 := by
  rw [List.flatMap_map]
  rfl

/-- A deep property gives what is in the slots. -/
theorem deepMatches_eq (hrecordFree : tree.recordFree = true) :
    tree.deepMatches name = (slots name tree).flatMap fun slot => slot.2.matchItems := by
  induction tree using Tree.induction with
  | scalar tree hscalar => cases tree <;> first | rfl | cases hscalar
  | array items ih =>
      have hitems : ∀ position, deepItemMatches name items =
          (slotsOfItems name position items).flatMap fun slot => slot.2.matchItems := by
        have hfree := (everywhere_array.mp hrecordFree).2
        clear hrecordFree
        induction items with
        | nil => intro position; rfl
        | cons item items hrest =>
            intro position
            obtain ⟨ihItem, ihItems⟩ := List.forall_mem_cons.mp ih
            obtain ⟨hitem, hitems⟩ := List.forall_mem_cons.mp hfree
            rw [deepItemMatches, slotsOfItems, List.flatMap_append, flatMap_inside, ihItem hitem,
              ← hrest ihItems hitems]
      exact hitems 0
  | object entries ih =>
      have hfree := (everywhere_object.mp hrecordFree).2
      clear hrecordFree
      rw [deepMatches, slots]
      induction entries with
      | nil => rfl
      | cons entry entries hrest =>
          obtain ⟨key, old⟩ := entry
          obtain ⟨ihEntry, ihEntries⟩ := List.forall_mem_cons.mp ih
          obtain ⟨hentry, hentries⟩ := List.forall_mem_cons.mp hfree
          rw [deepEntryMatches, slotsOfEntries, List.flatMap_append, hrest ihEntries hentries]
          by_cases hkey : key = name
          · rw [if_pos hkey, if_pos hkey, List.flatMap_singleton]
          · rw [if_neg hkey, if_neg hkey, flatMap_inside, ihEntry hentry]
  | record handle entries _ => cases hrecordFree

/-- What is in the slots, in document order. -/
def slotValues (name : String) (tree : Tree) : List Tree := (slots name tree).map Prod.snd

theorem deepMatches_eq_flatMap (hrecordFree : tree.recordFree = true) :
    tree.deepMatches name = (slotValues name tree).flatMap matchItems := by
  rw [deepMatches_eq hrecordFree, slotValues, List.flatMap_map]

theorem map_snd_inside (step : Step) (found : List (Address × Tree)) :
    (found.map (inside step)).map Prod.snd = found.map Prod.snd := by
  rw [List.map_map]
  rfl

theorem slotValues_array : slotValues name (array items) = items.flatMap (slotValues name) := by
  have hitems : ∀ position, (slotsOfItems name position items).map Prod.snd = items.flatMap (slotValues name) := by
    induction items with
    | nil => intro position; rfl
    | cons item items ih =>
        intro position
        rw [slotsOfItems, List.map_append, map_snd_inside, ih, List.flatMap_cons, slotValues]
  exact hitems 0

theorem slotValues_object : slotValues name (object entries) =
    entries.flatMap fun entry => if entry.1 = name then [entry.2] else slotValues name entry.2 := by
  rw [slotValues, slots]
  induction entries with
  | nil => rfl
  | cons entry entries ih =>
      obtain ⟨key, value⟩ := entry
      rw [slotsOfEntries, List.map_append, ih, List.flatMap_cons]
      by_cases hkey : key = name
      · rw [if_pos hkey, if_pos hkey, List.map_singleton]
      · rw [if_neg hkey, if_neg hkey, map_snd_inside, slotValues]

/-- What holds everywhere in a tree holds everywhere in its slots. -/
theorem everywhere_slotValues {test : Tree → Bool} (htree : tree.everywhere test = true) :
    ∀ value ∈ slotValues name tree, value.everywhere test = true := by
  induction tree using Tree.induction with
  | scalar tree hscalar =>
      intro value hmem
      cases tree <;> first | cases hmem | cases hscalar
  | array items ih =>
      rw [slotValues_array]
      intro value hmem
      obtain ⟨item, hitem, hmem⟩ := List.mem_flatMap.mp hmem
      exact ih item hitem ((everywhere_array.mp htree).2 item hitem) value hmem
  | object entries ih =>
      rw [slotValues_object]
      intro value hmem
      obtain ⟨entry, hentry, hmem⟩ := List.mem_flatMap.mp hmem
      have hbelow := (everywhere_object.mp htree).2 entry hentry
      split at hmem
      · rw [List.mem_singleton.mp hmem]
        exact hbelow
      · exact ih entry hentry hbelow value hmem
  | record handle entries _ =>
      intro value hmem
      cases hmem

theorem slotValues_of_isScalar (hscalar : tree.isScalar = true) : slotValues name tree = [] := by
  cases tree <;> first | rfl | cases hscalar

/-! ### Rewriting entries -/

theorem rewriteEntries_of_none (new : Option Tree) (tree : Tree) : rewriteEntries (fun _ => false) new tree = tree := by
  induction tree using Tree.induction with
  | scalar tree hscalar => cases tree <;> first | rfl | cases hscalar
  | array items ih =>
      have hitems : ∀ position, rewriteInItems (fun _ => false) new position items = items := by
        induction items with
        | nil => intro position; rfl
        | cons item items hrest =>
            intro position
            obtain ⟨hitem, hitems⟩ := List.forall_mem_cons.mp ih
            rw [rewriteInItems, hitem, hrest hitems]
      rw [rewriteEntries, hitems]
  | object entries ih =>
      have hentries : rewriteInEntries (fun _ => false) new entries = entries := by
        induction entries with
        | nil => rfl
        | cons entry entries hrest =>
            obtain ⟨hentry, hentries⟩ := List.forall_mem_cons.mp ih
            rw [rewriteInEntries, hentry, hrest hentries]
            rfl
      rw [rewriteEntries, hentries]
  | record handle entries _ => rfl

/-- Among the entries that lie in no entry of the name, those of the name are chosen. -/
def Fits (name : String) (chosen : Address → Bool) (tree : Tree) : Prop :=
  ∀ holder key value, .key name ∉ holder → tree.at? (holder ++ [.key key]) = some value →
    chosen (holder ++ [.key key]) = decide (key = name)

theorem Fits.entry (hfits : Fits name chosen tree) (hvalue : tree.under? (.key key) = some value) :
    chosen [.key key] = decide (key = name) :=
  hfits [] key value List.not_mem_nil (at?_cons hvalue)

theorem Fits.below (hfits : Fits name chosen tree) (hchild : tree.under? step = some child)
    (hstep : step ≠ .key name) : Fits name (fun address => chosen (step :: address)) child := by
  intro holder key value houtermost hvalue
  refine hfits (step :: holder) key value (fun hmem => ?_) ((at?_cons hchild).trans hvalue)
  rcases List.mem_cons.mp hmem with heq | hmem
  · exact hstep heq.symm
  · exact houtermost hmem

theorem Fits.item {index : Nat} {item : Tree} (hfits : Fits name chosen (array items))
    (hitem : items[index]? = some item) : Fits name (fun address => chosen (.position index :: address)) item :=
  hfits.below hitem (by simp)

theorem Fits.member {entry : String × Tree} (hfits : Fits name chosen (object entries))
    (hnodup : (Entries.keys entries).Nodup) (hmem : entry ∈ entries) :
    chosen [.key entry.1] = decide (entry.1 = name) ∧
      (entry.1 ≠ name → Fits name (fun address => chosen (.key entry.1 :: address)) entry.2) := by
  have hunder : (object entries).under? (.key entry.1) = some entry.2 := Entries.find?_of_mem hnodup hmem
  refine ⟨hfits.entry hunder, fun hkey => hfits.below hunder fun heq => hkey (Step.key.inj heq)⟩

/-- Whether an address is that of a slot. -/
def atSlot (name : String) (tree : Tree) (address : Address) : Bool :=
  decide (address ∈ (slots name tree).map Prod.fst)

theorem fits_atSlot (name : String) (hdistinct : tree.keysDistinct = true) : Fits name (atSlot name tree) tree := by
  intro holder key value houtermost hvalue
  rw [atSlot, decide_eq_decide]
  constructor
  · intro hmem
    obtain ⟨⟨address, found⟩, hslot, heq⟩ := List.mem_map.mp hmem
    obtain ⟨⟨other, hother, -⟩, -⟩ := (mem_slots hdistinct).mp hslot
    have hsame : holder ++ [.key key] = other ++ [.key name] := heq.symm.trans hother
    exact Step.key.inj (List.cons.inj (List.append_inj_right' hsame rfl)).1
  · rintro rfl
    exact List.mem_map.mpr ⟨(_, value), (mem_slots hdistinct).mpr ⟨⟨holder, rfl, houtermost⟩, hvalue⟩, rfl⟩

theorem rewriteEntries_of_slots_eq_nil (hnone : slots name tree = []) (new : Option Tree) :
    tree.rewriteEntries (atSlot name tree) new = tree := by
  have hchosen : atSlot name tree = fun _ => false := by
    funext address
    simp [atSlot, hnone]
  rw [hchosen, rewriteEntries_of_none]

end TreeQuery.Tree
