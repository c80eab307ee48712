import Mathlib.Data.List.Nodup
import TreeQuery.Proofs.Edit.DeepSlots

/-!
# Deep properties in document order

All entries of objects in a tree are listed in pre-order, which is the lexicographic order of the routes to them: at
each node on the way, how many children stand before the one that the way goes on in. A deep property reads the
outermost entries of its name in this order.
-/

namespace TreeQuery

namespace Tree

mutual

/-- The entries of objects at any depth with their addresses, each in front of those inside it. -/
def entriesBelow : Tree → List (Address × Tree)
  | array items => entriesBelowItems 0 items
  | object entries => entriesBelowEntries entries
  | _ => []

def entriesBelowItems : Nat → List Tree → List (Address × Tree)
  | _, [] => []
  | position, item :: items =>
    (entriesBelow item).map (inside (.position position)) ++ entriesBelowItems (position + 1) items

def entriesBelowEntries : List (String × Tree) → List (Address × Tree)
  | [] => []
  | (key, value) :: entries =>
    ([.key key], value) :: (entriesBelow value).map (inside (.key key)) ++ entriesBelowEntries entries

end

/-- Whether an address is that of an entry of the name with no entry of the name above it. -/
def isOutermost (name : String) (address : Address) : Bool :=
  decide (address.getLast? = some (.key name) ∧ .key name ∉ address.dropLast)

/-- How many children of a node stand before the one that a step leads to. -/
def rank (tree : Tree) (step : Step) : Nat := (tree.steps.map Prod.fst).idxOf step

/-- The ranks of the steps of an address. -/
def route : Address → Tree → List Nat
  | [], _ => []
  | step :: address, tree => tree.rank step :: ((tree.under? step).map (route address)).getD []

variable {name : String} {tree child value : Tree} {step : Step} {address : Address}

/-- What lies under one step: the child itself if the step is a key, and the entries below the child. -/
def entriesAt : Step → Tree → List (Address × Tree)
  | .key key, child => ([.key key], child) :: (entriesBelow child).map (inside (.key key))
  | .position position, child => (entriesBelow child).map (inside (.position position))

theorem entriesBelow_eq (tree : Tree) :
    entriesBelow tree = tree.steps.flatMap fun child => entriesAt child.1 child.2 := by
  cases tree with
  | array items =>
      have hitems : ∀ position, entriesBelowItems position items =
          (items.zipIdx position).flatMap fun item => entriesAt (.position item.2) item.1 := by
        induction items with
        | nil => intro position; rfl
        | cons item items ih =>
            intro position
            rw [entriesBelowItems, ih, List.zipIdx_cons, List.flatMap_cons, entriesAt]
      rw [entriesBelow, hitems, steps, List.flatMap_map]
  | object entries =>
      rw [entriesBelow, steps, List.flatMap_map]
      induction entries with
      | nil => rfl
      | cons entry entries ih =>
          obtain ⟨key, value⟩ := entry
          rw [entriesBelowEntries, ih, List.flatMap_cons, entriesAt]
  | _ => rfl

theorem mem_entriesAt : (address, value) ∈ entriesAt step child ↔
    ((∃ key, step = .key key) ∧ address = [step] ∧ value = child) ∨
      ∃ rest, address = step :: rest ∧ (rest, value) ∈ entriesBelow child := by
  have hbelow : (address, value) ∈ (entriesBelow child).map (inside step) ↔
      ∃ rest, address = step :: rest ∧ (rest, value) ∈ entriesBelow child := by
    simp only [List.mem_map, inside, Prod.mk.injEq, Prod.exists]
    constructor
    · rintro ⟨rest, found, hmem, rfl, rfl⟩
      exact ⟨rest, rfl, hmem⟩
    · rintro ⟨rest, rfl, hmem⟩
      exact ⟨rest, value, hmem, rfl, rfl⟩
  cases step with
  | key key => simp [entriesAt, ← hbelow]
  | position position => simp [entriesAt, ← hbelow]

theorem exists_cons_of_mem_entriesAt (hentry : (address, value) ∈ entriesAt step child) :
    ∃ rest, address = step :: rest := by
  rcases mem_entriesAt.mp hentry with ⟨-, haddress, -⟩ | ⟨rest, haddress, -⟩
  · exact ⟨[], haddress⟩
  · exact ⟨rest, haddress⟩

theorem ne_nil_of_mem_entriesBelow (hentry : (address, value) ∈ entriesBelow tree) : address ≠ [] := by
  rw [entriesBelow_eq, List.mem_flatMap] at hentry
  obtain ⟨child, -, hentry⟩ := hentry
  obtain ⟨rest, rfl⟩ := exists_cons_of_mem_entriesAt hentry
  exact List.cons_ne_nil _ _

/-! ### All entries are listed -/

theorem mem_entriesBelow (hdistinct : tree.keysDistinct = true) :
    (address, value) ∈ entriesBelow tree ↔
      tree.at? address = some value ∧ ∃ key, address.getLast? = some (.key key) := by
  induction tree using steps_induction generalizing address with
  | node tree ih =>
      rw [entriesBelow_eq, List.mem_flatMap]
      constructor
      · rintro ⟨⟨step, child⟩, hmem, hentry⟩
        have hchild := (mem_steps hdistinct).mp hmem
        rcases mem_entriesAt.mp hentry with ⟨⟨key, hkey⟩, rfl, rfl⟩ | ⟨rest, rfl, hrest⟩
        · exact ⟨at?_cons hchild, key, congrArg some hkey⟩
        · obtain ⟨hat, key, hlast⟩ := (ih _ hmem (keysDistinct_of_under? hdistinct hchild)).mp hrest
          exact ⟨(at?_cons hchild).trans hat, key, by rw [List.getLast?_cons, hlast]; rfl⟩
      · rintro ⟨hat, key, hlast⟩
        cases address with
        | nil => cases hlast
        | cons step rest =>
            obtain ⟨child, hchild, hat⟩ := at?_cons_eq_some.mp hat
            have hmem := (mem_steps hdistinct).mpr hchild
            refine ⟨(step, child), hmem, mem_entriesAt.mpr ?_⟩
            cases rest with
            | nil =>
                obtain rfl : child = value := Option.some.inj hat
                exact .inl ⟨⟨key, Option.some.inj hlast⟩, rfl, rfl⟩
            | cons next rest =>
                have hbelow : (next :: rest, value) ∈ entriesBelow child :=
                  (ih _ hmem (keysDistinct_of_under? hdistinct hchild)).mpr ⟨hat, key, hlast⟩
                exact .inr ⟨_, rfl, hbelow⟩

/-! ### The order of the list -/

theorem pairwise_rank (hdistinct : tree.keysDistinct = true) :
    tree.steps.Pairwise fun before after => tree.rank before.1 < tree.rank after.1 := by
  rw [List.pairwise_iff_getElem]
  intro i j hi hj hlt
  have hrank (position : Nat) (hposition : position < tree.steps.length) :
      tree.rank tree.steps[position].1 = position := by
    have hindex := (nodup_steps hdistinct).idxOf_getElem position (by rwa [List.length_map])
    rwa [List.getElem_map] at hindex
  rwa [hrank i hi, hrank j hj]

theorem route_cons (hchild : tree.under? step = some child) :
    route (step :: address) tree = tree.rank step :: route address child := by
  rw [route, hchild]
  rfl

/-- The list is sorted by the routes of its addresses. -/
theorem pairwise_route (hdistinct : tree.keysDistinct = true) :
    (entriesBelow tree).Pairwise fun before after => route before.1 tree < route after.1 tree := by
  induction tree using steps_induction with
  | node tree ih =>
      rw [entriesBelow_eq, List.pairwise_flatMap]
      constructor
      · rintro ⟨step, child⟩ hmem
        have hchild := (mem_steps hdistinct).mp hmem
        have hbelow : ((entriesBelow child).map (inside step)).Pairwise
            fun before after => route before.1 tree < route after.1 tree := by
          rw [List.pairwise_map]
          refine (ih _ hmem (keysDistinct_of_under? hdistinct hchild)).imp fun {before after} hlt => ?_
          rw [inside, inside, route_cons hchild, route_cons hchild, List.cons_lt_cons_iff]
          exact .inr ⟨rfl, hlt⟩
        cases step with
        | position position => exact hbelow
        | key key =>
            refine List.pairwise_cons.mpr ⟨fun slot hslot => ?_, hbelow⟩
            -- The way to the entry itself ends where the ways to the entries inside it go on.
            obtain ⟨⟨rest, found⟩, hrest, rfl⟩ := List.mem_map.mp hslot
            obtain ⟨next, rest, rfl⟩ := List.exists_cons_of_ne_nil (ne_nil_of_mem_entriesBelow hrest)
            rw [inside, route_cons hchild, route_cons hchild, List.cons_lt_cons_iff]
            exact .inr ⟨rfl, List.nil_lt_cons _ _⟩
      · refine (pairwise_rank hdistinct).imp fun {before after} hlt => ?_
        rintro ⟨left, leftValue⟩ hleft ⟨right, rightValue⟩ hright
        obtain ⟨left, rfl⟩ := exists_cons_of_mem_entriesAt hleft
        obtain ⟨right, rfl⟩ := exists_cons_of_mem_entriesAt hright
        rw [route, route, List.cons_lt_cons_iff]
        exact .inl hlt

/-! ### The outermost entries -/

theorem isOutermost_singleton : isOutermost name [step] = decide (step = .key name) := by
  simp [isOutermost]

theorem isOutermost_cons (haddress : address ≠ []) :
    isOutermost name (step :: address) = (decide (step ≠ .key name) && isOutermost name address) := by
  obtain ⟨next, rest, rfl⟩ := List.exists_cons_of_ne_nil haddress
  simp only [isOutermost, List.getLast?_cons_cons, List.dropLast_cons_cons, List.mem_cons, not_or, ← Bool.decide_and,
    decide_eq_decide]
  rw [ne_comm]
  tauto

theorem filter_entriesAt (hslots : slots name child = (entriesBelow child).filter fun entry => isOutermost name entry.1) :
    (entriesAt step child).filter (fun entry => isOutermost name entry.1) = slotsAt name step child := by
  have hbelow : ((entriesBelow child).map (inside step)).filter (fun entry => isOutermost name entry.1) =
      if step = .key name then [] else (slots name child).map (inside step) := by
    have htest : ∀ entry ∈ entriesBelow child, isOutermost name (inside step entry).1 =
        (decide (step ≠ .key name) && isOutermost name entry.1) := fun entry hentry =>
      isOutermost_cons (ne_nil_of_mem_entriesBelow hentry)
    rw [List.filter_map, Function.comp_def, List.filter_congr htest, hslots]
    by_cases hstep : step = .key name
    · simp [hstep]
    · simp [hstep]
  rw [slotsAt]
  cases step with
  | position position => rw [entriesAt, hbelow, if_neg (by simp), if_neg (by simp)]
  | key key =>
      rw [entriesAt, List.filter_cons, hbelow, isOutermost_singleton]
      by_cases hkey : key = name
      · simp [hkey]
      · simp [hkey]

theorem slots_eq_filter (name : String) (tree : Tree) :
    slots name tree = (entriesBelow tree).filter fun entry => isOutermost name entry.1 := by
  induction tree using steps_induction with
  | node tree ih =>
      rw [slots_eq, entriesBelow_eq, List.filter_flatMap, List.flatMap_def, List.flatMap_def]
      congr 1
      exact List.map_congr_left fun child hmem => (filter_entriesAt (ih child hmem)).symm

end Tree

open TreeQuery.Tree

/-- **A deep property reads the outermost entries of its name in document order.** The list of entries holds every
entry of an object at any depth, sorted by the routes to them. The deep property gives, for each entry of its name with
none of the name above it, the items if it is an array and the value itself otherwise, and nothing else. -/
theorem Path.eval_deep_entries {path : Path} {name : String} {root : Tree}
    (hpath : path.segments = [.property name true]) (hrecordFree : root.recordFree = true)
    (hdistinct : root.keysDistinct = true) :
    let entries := root.entriesBelow
    path.eval root = .ok (.array ((entries.filter fun entry => isOutermost name entry.1).flatMap
        fun entry => entry.2.matchItems)) ∧
      (∀ address value, (address, value) ∈ entries ↔
        root.at? address = some value ∧ ∃ key, address.getLast? = some (.key key)) ∧
      entries.Pairwise fun before after => route before.1 root < route after.1 root := by
  intro entries
  refine ⟨?_, fun _ _ => mem_entriesBelow hdistinct, pairwise_route hdistinct⟩
  rw [eval_deep hpath, deepMatches_eq hrecordFree, slots_eq_filter]

/-- A null, an array under an array, and entries of the name inside others, which stay where they are. -/
theorem Path.eval_deep_entries_nested :
    let path := Path.mk "$..n" [.property "n" true] false true
    let inner := Tree.object [("n", .array [.integer 1, .object [("n", .integer 2)]]), ("x", .object [("n", .integer 3)])]
    let root := Tree.object [("a", .array [.array [.object [("n", .null)]], inner]), ("n", .object [("n", .integer 4)])]
    root.recordFree = true ∧ root.keysDistinct = true ∧ root.entriesBelow.length = 8 ∧
      path.eval root = .ok (.array [.null, .integer 1, .object [("n", .integer 2)], .integer 3,
        .object [("n", .integer 4)]]) := by
  intro path inner root
  have hdistinct : root.keysDistinct = true := by decide
  have hpath : path.segments = [.property "n" true] := rfl
  obtain ⟨heval, -, -⟩ := eval_deep_entries hpath rfl hdistinct
  exact ⟨rfl, hdistinct, rfl, heval⟩

end TreeQuery
