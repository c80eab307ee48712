import Mathlib.Data.List.Perm.Subperm
import TreeQuery.Proofs.Tree.Numbers

/-!
# What trees mean

A tree means the same whatever the form of its numbers and the order of the keys in its objects: a number means a
rational, and an object means a map from keys to meanings. Two trees have the same value exactly if they mean the same.
-/

namespace TreeQuery

/-- A document apart from the form of numbers and the order of keys. Binary numbers, which have no exact value here, mean
themselves, and a record means its handle. -/
inductive Meaning
  | null
  | bool (value : Bool)
  | number (value : ℚ)
  | float (value : Binary64)
  | string (text : String)
  | array (items : List Meaning)
  | object (entries : String → Option Meaning)
  | record (handle : Nat)

namespace Entries

variable {α β : Type} {entries others : Entries α} {name : String}

theorem mem_keys_iff : name ∈ entries.keys ↔ ∃ value, entries.find? name = some value := by
  constructor
  · intro hmem
    cases hfind : entries.find? name with
    | some value => exact ⟨value, rfl⟩
    | none =>
        obtain ⟨entry, hentry, rfl⟩ := List.mem_map.mp hmem
        exact absurd rfl (bne_iff_ne.mp (List.lookup_eq_none_iff.mp hfind entry hentry))
  · rintro ⟨value, hfind⟩
    exact List.mem_map_of_mem (mem_of_find? hfind)

/-- Entries with distinct keys are the same map under a reading if one has as many as the other and none that the other
reads differently. -/
theorem map_find?_eq_iff (read : α → β) (hentries : entries.keys.Nodup) (hothers : others.keys.Nodup) :
    (∀ key, (entries.find? key).map read = (others.find? key).map read) ↔
      entries.length = others.length ∧
        ∀ entry ∈ entries, ∃ other, others.find? entry.1 = some other ∧ read entry.2 = read other := by
  have hlength (found : Entries α) : found.keys.length = found.length := List.length_map _
  constructor
  · intro heq
    constructor
    · have hkeys : ∀ key, key ∈ entries.keys ↔ key ∈ others.keys := by
        intro key
        have hsome := congrArg Option.isSome (heq key)
        rw [Option.isSome_map, Option.isSome_map] at hsome
        rw [mem_keys_iff, mem_keys_iff, ← Option.isSome_iff_exists, ← Option.isSome_iff_exists, hsome]
      rw [← hlength, ← hlength]
      exact ((List.perm_ext_iff_of_nodup hentries hothers).mpr hkeys).length_eq
    · rintro ⟨key, value⟩ hmem
      have hread := heq key
      rw [find?_of_mem hentries hmem] at hread
      obtain ⟨other, hother, hsame⟩ := Option.map_eq_some_iff.mp hread.symm
      exact ⟨other, hother, hsame.symm⟩
  · rintro ⟨hcount, hall⟩ key
    cases hfind : entries.find? key with
    | some value =>
        obtain ⟨other, hother, hsame⟩ := hall _ (mem_of_find? hfind)
        rw [hother, Option.map_some, Option.map_some, hsame]
    | none =>
        -- All keys of the one are keys of the other, which has no more, so it has no key that is missing here.
        have hsubset : entries.keys ⊆ others.keys := by
          intro found hfound
          obtain ⟨entry, hentry, rfl⟩ := List.mem_map.mp hfound
          obtain ⟨other, hother, -⟩ := hall entry hentry
          exact mem_keys_iff.mpr ⟨other, hother⟩
        have hperm : entries.keys.Perm others.keys := by
          refine (List.subperm_of_subset hentries hsubset).perm_of_length_le ?_
          rw [hlength, hlength, hcount]
        have hmissing : key ∉ others.keys := fun hmem => by
          obtain ⟨value, hvalue⟩ := mem_keys_iff.mp (hperm.mem_iff.mpr hmem)
          rw [hfind] at hvalue
          cases hvalue
        cases hother : others.find? key with
        | none => rfl
        | some other => exact absurd (mem_keys_iff.mpr ⟨other, hother⟩) hmissing

end Entries

namespace Tree

mutual

def meaning : Tree → Meaning
  | null => .null
  | bool value => .bool value
  | integer value => .number value
  | decimal value => .number value.toRat
  | float value => .float value
  | string text => .string text
  | array items => .array (meaningOfItems items)
  | object entries => .object (meaningOfEntries entries)
  | record handle _ => .record handle

def meaningOfItems : List Tree → List Meaning
  | [] => []
  | item :: items => meaning item :: meaningOfItems items

def meaningOfEntries : List (String × Tree) → String → Option Meaning
  | [], _ => none
  | (key, value) :: entries, name => if key = name then some (meaning value) else meaningOfEntries entries name

end

theorem meaningOfItems_eq_map (items : List Tree) : meaningOfItems items = items.map meaning := by
  induction items with
  | nil => rfl
  | cons item items ih => rw [meaningOfItems, List.map_cons, ih]

theorem meaningOfEntries_eq (entries : Entries Tree) (name : String) :
    meaningOfEntries entries name = (entries.find? name).map meaning := by
  induction entries with
  | nil => rfl
  | cons entry entries ih =>
      obtain ⟨key, value⟩ := entry
      rw [meaningOfEntries, Entries.find?_cons, ih]
      split <;> rfl

variable {left right : Tree} {x y : ℚ}

theorem meaning_of_number? (hleft : left.number? = some x) : left.meaning = .number x := by
  cases left with
  | integer value => exact congrArg Meaning.number (Option.some.inj hleft)
  | decimal value => exact congrArg Meaning.number (Option.some.inj hleft)
  | _ => cases hleft

/-! ### Values of one node -/

theorem sameValue_numbers (hleft : left.number? = some x) (hright : right.number? = some y) :
    left.sameValue right = true ↔ x = y := by
  have hsame : left.sameValue right = (left.compareNumbers right == some .eq) := by
    cases left <;> cases hleft <;> cases right <;> cases hright <;> rfl
  rw [hsame, compareNumbers_eq hleft hright, beq_iff_eq, Option.some_inj, compare_eq_iff_eq]

theorem sameValue_number_iff (hleft : left.number? = some x) (hright : right.isFloat = false) :
    left.sameValue right = true ↔ left.meaning = right.meaning := by
  rw [meaning_of_number? hleft]
  cases hnumber : right.isNumber with
  | true =>
      obtain ⟨y, hy⟩ := exists_number? hnumber hright
      rw [sameValue_numbers hleft hy, meaning_of_number? hy, Meaning.number.injEq]
  | false =>
      cases left <;> cases hleft
      all_goals
        cases right with
        | integer value => cases hnumber
        | decimal value => cases hnumber
        | float value => cases hnumber
        | _ => simp [sameValue, meaning, isNumber]

theorem sameValue_scalar_iff (hscalar : left.isScalar = true) (hleft : left.isFloat = false)
    (hright : right.isFloat = false) : left.sameValue right = true ↔ left.meaning = right.meaning := by
  cases left with
  | integer value => exact sameValue_number_iff rfl hright
  | decimal value => exact sameValue_number_iff rfl hright
  | float value => cases hleft
  | array items => cases hscalar
  | object entries => cases hscalar
  | record handle entries => cases hscalar
  | _ => cases right <;> simp [sameValue, meaning, isNumber]

theorem sameItems_iff {items others : List Tree} (hlength : items.length = others.length)
    (hitems : ∀ item ∈ items, ∀ other ∈ others, item.sameValue other = true ↔ item.meaning = other.meaning) :
    sameItems items others = true ↔ meaningOfItems items = meaningOfItems others := by
  induction items generalizing others with
  | nil =>
      obtain rfl := List.length_eq_zero_iff.mp hlength.symm
      simp [sameItems]
  | cons item items ih =>
      cases others with
      | nil => cases hlength
      | cons other others =>
          have hhead := hitems item List.mem_cons_self other List.mem_cons_self
          have htail := ih (Nat.succ.inj hlength) fun item hitem other hother =>
            hitems item (List.mem_cons_of_mem _ hitem) other (List.mem_cons_of_mem _ hother)
          rw [sameItems, Bool.and_eq_true, hhead, htail, meaningOfItems, meaningOfItems, List.cons.injEq]

theorem sameEntries_iff {entries others : Entries Tree} : sameEntries entries others = true ↔
    ∀ entry ∈ entries, ∃ other, Entries.find? others entry.1 = some other ∧ entry.2.sameValue other = true := by
  induction entries with
  | nil => simp [sameEntries]
  | cons entry entries ih =>
      obtain ⟨key, value⟩ := entry
      rw [sameEntries, Bool.and_eq_true, ih, List.forall_mem_cons]
      cases Entries.find? others key <;> simp

/-! ### Values of trees -/

/-- No binary numbers, and no key twice in an object. -/
structure IsExact (tree : Tree) : Prop where
  floatFree : tree.floatFree = true
  keysDistinct : tree.keysDistinct = true

theorem IsExact.isFloat_eq (htree : left.IsExact) : left.isFloat = false := by
  have hfloats := htree.floatFree
  cases left with
  | float value => cases hfloats
  | _ => rfl

theorem IsExact.item {items : List Tree} (htree : (array items).IsExact) {item : Tree} (hitem : item ∈ items) :
    item.IsExact :=
  ⟨(everywhere_array.mp htree.floatFree).2 item hitem, keysDistinct_array.mp htree.keysDistinct item hitem⟩

theorem IsExact.entry {entries : Entries Tree} (htree : (object entries).IsExact) {entry : String × Tree}
    (hentry : entry ∈ entries) : entry.2.IsExact :=
  ⟨(everywhere_object.mp htree.floatFree).2 entry hentry, (keysDistinct_object.mp htree.keysDistinct).2 entry hentry⟩

theorem IsExact.nodup {entries : Entries Tree} (htree : (object entries).IsExact) : (Entries.keys entries).Nodup :=
  (keysDistinct_object.mp htree.keysDistinct).1

/-- Trees have the same value if and only if they mean the same. -/
theorem sameValue_iff_meaning_eq (hleft : left.IsExact) (hright : right.IsExact) :
    left.sameValue right = true ↔ left.meaning = right.meaning := by
  induction left using Tree.induction generalizing right with
  | scalar left hscalar => exact sameValue_scalar_iff hscalar hleft.isFloat_eq hright.isFloat_eq
  | array items ih =>
      cases right with
      | array others =>
          rw [sameValue, Bool.and_eq_true, beq_iff_eq, meaning, meaning, Meaning.array.injEq]
          have hitems (hlength : items.length = others.length) :=
            sameItems_iff hlength fun item hitem other hother => ih item hitem (hleft.item hitem) (hright.item hother)
          constructor
          · rintro ⟨hlength, hsame⟩
            exact (hitems hlength).mp hsame
          · intro hmeaning
            have hlength : items.length = others.length := by
              rw [meaningOfItems_eq_map, meaningOfItems_eq_map] at hmeaning
              simpa using congrArg List.length hmeaning
            exact ⟨hlength, (hitems hlength).mpr hmeaning⟩
      | _ => simp [sameValue, meaning, isNumber]
  | object entries ih =>
      cases right with
      | object others =>
          have hentries : sameEntries entries others = true ↔ ∀ entry ∈ entries,
              ∃ other, Entries.find? others entry.1 = some other ∧ entry.2.meaning = other.meaning := by
            rw [sameEntries_iff]
            refine forall₂_congr fun entry hentry => exists_congr fun other => and_congr_right fun hfind => ?_
            exact ih entry hentry (hleft.entry hentry) (hright.entry (Entries.mem_of_find? hfind))
          rw [sameValue, Bool.and_eq_true, beq_iff_eq, hentries, ← Entries.map_find?_eq_iff meaning hleft.nodup hright.nodup,
            meaning, meaning, Meaning.object.injEq, funext_iff]
          refine forall_congr' fun key => ?_
          rw [meaningOfEntries_eq, meaningOfEntries_eq]
      | _ => simp [sameValue, meaning, isNumber]
  | record handle entries _ => cases right <;> simp [sameValue, meaning, isNumber]

end Tree

/-- Trees without records and binary numbers in which no object repeats a key. -/
abbrev ExactTree := { tree : Tree // tree.recordFree = true ∧ tree.IsExact }

/-- **Sameness of values is sameness of meaning.** Over trees without records and binary numbers it is an equivalence,
and holds exactly if the trees become identical once every number is its exact value and every object the map of its
entries. -/
theorem Tree.equivalence_sameValue :
    Equivalence (fun left right : ExactTree => left.1.sameValue right.1 = true) ∧
      ∀ left right : ExactTree, left.1.sameValue right.1 = true ↔ left.1.meaning = right.1.meaning := by
  have hmeaning (left right : ExactTree) : left.1.sameValue right.1 = true ↔ left.1.meaning = right.1.meaning :=
    sameValue_iff_meaning_eq left.2.2 right.2.2
  refine ⟨⟨fun tree => ?_, fun {left right} hsame => ?_, fun {first second third} hfirst hsecond => ?_⟩, hmeaning⟩
  · exact (hmeaning tree tree).mpr rfl
  · exact (hmeaning right left).mpr ((hmeaning left right).mp hsame).symm
  · exact (hmeaning first third).mpr (((hmeaning first second).mp hfirst).trans ((hmeaning second third).mp hsecond))

/-- Two objects that differ in the order of their keys and in the form of their numbers. -/
theorem Tree.equivalence_sameValue_keys :
    let left := Tree.object [("x", .integer 1), ("y", .array [.decimal ⟨10, 1⟩, .string "s"])]
    let right := Tree.object [("y", .array [.integer 1, .string "s"]), ("x", .decimal ⟨100, 2⟩)]
    left.IsExact ∧ right.IsExact ∧ left.sameValue right = true ∧ right.sameValue left = true ∧
      left.meaning = right.meaning := by
  intro left right
  have hleft : left.IsExact := ⟨rfl, by decide⟩
  have hright : right.IsExact := ⟨rfl, by decide⟩
  have hsame : left.sameValue right = true := by decide
  obtain ⟨hequivalence, hmeaning⟩ := equivalence_sameValue
  let first : ExactTree := ⟨left, rfl, hleft⟩
  let second : ExactTree := ⟨right, rfl, hright⟩
  exact ⟨hleft, hright, hsame, hequivalence.symm (x := first) (y := second) hsame, (hmeaning first second).mp hsame⟩

end TreeQuery
