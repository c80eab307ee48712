import Mathlib.Data.List.Forall2
import TreeQuery.Patch
import TreeQuery.Proofs.Json.Writing
import TreeQuery.Proofs.Running

/-!
# Patches as text

An operation is written as an object and read from a tree that was read from text. Its value may come back with other
kinds of numbers; everything else comes back as it was, and a source that was not written is read as none.
-/

namespace TreeQuery

theorem PatchKind.ofName?_name (kind : PatchKind) : ofName? kind.name = some kind := by
  cases kind <;> decide

namespace PatchOperation

/-- The operation that was found is the one that was written, but for numbers of another kind in its value. -/
structure ReadsAs (found operation : PatchOperation) : Prop where
  kind : found.kind = operation.kind
  path : found.path = operation.path
  source : found.source = operation.source
  value : found.value.sameValue operation.value = true

/-- The operation can be written as an element of a list and read again. -/
structure Writable (operation : PatchOperation) : Prop where
  value : operation.value.Writable
  height : operation.value.height ≤ 125

variable {operation : PatchOperation} {operations : List PatchOperation}

/-! ### The object of an operation -/

/-- Besides its value, the object of an operation holds texts. -/
theorem exists_toTree (operation : PatchOperation) :
    ∃ entries : Entries Tree, operation.toTree = .object entries ∧ entries.keys.Nodup ∧
      Json.announcesNumber entries = false ∧
      ∀ entry ∈ entries, (∃ text, entry.2 = .string text) ∨ entry.2 = operation.value := by
  unfold toTree
  cases operation.source with
  | none => exact ⟨_, rfl, (by decide : ["op", "path", "value"].Nodup), rfl, by simp⟩
  | some text => exact ⟨_, rfl, (by decide : ["op", "path", "from", "value"].Nodup), rfl, by simp⟩

theorem writable_toTree (hvalue : operation.value.Writable) : operation.toTree.Writable := by
  obtain ⟨entries, htree, hnodup, hannounces, hentries⟩ := operation.exists_toTree
  rw [htree]
  refine Tree.writable_object hnodup hannounces fun entry hmem => ?_
  rcases hentries entry hmem with ⟨text, htext⟩ | hentry
  · exact htext ▸ Tree.writable_string text
  · exact hentry ▸ hvalue

theorem height_toTree (operation : PatchOperation) : operation.toTree.height ≤ operation.value.height + 1 := by
  obtain ⟨entries, htree, -, -, hentries⟩ := operation.exists_toTree
  rw [htree, Tree.height]
  refine Nat.succ_le_succ (Tree.heightOfEntries_le fun entry hmem => ?_)
  rcases hentries entry hmem with ⟨text, htext⟩ | hentry
  · exact htext ▸ Nat.zero_le _
  · exact hentry ▸ Nat.le_refl _

/-- What comes back of the object is the object of the operation with what comes back of its value. -/
theorem reread_toTree (operation : PatchOperation) :
    operation.toTree.reread = toTree { operation with value := operation.value.reread } := by
  unfold toTree
  cases operation.source <;> rfl

/-! ### Reading it back -/

theorem ofFields?_some (operation : PatchOperation) :
    ofFields? (some (.string operation.kind.name)) (some (.string operation.path)) (operation.source.map .string)
      (some operation.value) = some operation := by
  obtain ⟨kind, path, source, value⟩ := operation
  have hkind : kindOf? (.string kind.name) = some kind := kind.ofName?_name
  simp only [ofFields?, Option.bind_eq_bind, Option.bind_some, hkind, pathOf?]
  cases source <;> rfl

theorem ofElement?_toTree (operation : PatchOperation) : ofElement? operation.toTree = some operation := by
  have hfields := operation.ofFields?_some
  unfold toTree
  -- The four keys are looked up in the object as it is written with a source and without.
  cases hsource : operation.source <;> rw [hsource] at hfields <;> exact hfields

theorem readsAs_reread (hoperation : operation.Writable) :
    ReadsAs { operation with value := operation.value.reread } operation :=
  ⟨rfl, rfl, rfl, Tree.sameValue_reread hoperation.value.floatFree hoperation.value.keysDistinct⟩

theorem parseAll_object {text : String} {entries : Entries Tree} {found : PatchOperation}
    (hparse : Tree.parse text = some (.object entries)) (hobject : ofElement? (.object entries) = some found) :
    parseAll text = .ok [found] := by
  rw [ofElement?] at hobject
  rw [parseAll, hparse]
  simp only [hobject, Option.map_some]

theorem parseAll_array {text : String} {items : List Tree} {found : List PatchOperation}
    (hparse : Tree.parse text = some (.array items)) (hitems : items.mapM ofElement? = some found) :
    parseAll text = .ok found := by
  rw [parseAll, hparse]
  simp only [hitems]

/-- **Patches are read back.** From the text of a list of operations as many operations are read, in the same order,
with the same kinds, paths and sources and with equal values; and from the text of one operation that one alone. As for
trees, no object in a value may begin with the key that stands for numbers. -/
theorem parseAll_toJson (hoperations : ∀ operation ∈ operations, operation.Writable) :
    (∃ found, parseAll (Tree.array (operations.map toTree)).toJson = .ok found ∧
      List.Forall₂ ReadsAs found operations) ∧
    ∀ operation ∈ operations, ∃ found, parseAll operation.toTree.toJson = .ok [found] ∧ found.ReadsAs operation := by
  constructor
  · have hwritable : (Tree.array (operations.map toTree)).Writable :=
      Tree.writable_array (List.forall_mem_map.mpr fun operation hmem =>
        writable_toTree (hoperations operation hmem).value)
    have hheight : (Tree.array (operations.map toTree)).height ≤ 127 :=
      Nat.succ_le_succ (Tree.heightOfItems_le (List.forall_mem_map.mpr fun operation hmem =>
        Nat.le_trans operation.height_toTree (Nat.succ_le_succ (hoperations operation hmem).height)))
    have hparse := Tree.parse_toJson_eq hwritable hheight
    rw [Tree.reread, Tree.rereadItems_eq_map, List.map_map] at hparse
    refine ⟨operations.map fun operation => { operation with value := operation.value.reread },
      parseAll_array hparse (mapM_eq_some_iff.mpr ?_), ?_⟩
    · rw [List.map_map, List.map_map]
      refine List.map_congr_left fun operation _ => ?_
      simp only [Function.comp_apply, reread_toTree, ofElement?_toTree]
    · rw [List.forall₂_map_left_iff]
      exact List.forall₂_same.mpr fun operation hmem => readsAs_reread (hoperations operation hmem)
  · intro operation hmem
    have hoperation := hoperations operation hmem
    have hparse := Tree.parse_toJson_eq (writable_toTree hoperation.value)
      (Nat.le_trans operation.height_toTree (Nat.le_trans (Nat.succ_le_succ hoperation.height) (by decide)))
    obtain ⟨entries, htree, -⟩ := exists_toTree { operation with value := operation.value.reread }
    have helement := ofElement?_toTree { operation with value := operation.value.reread }
    rw [reread_toTree, htree] at hparse
    rw [htree] at helement
    exact ⟨_, parseAll_object hparse helement, readsAs_reread hoperation⟩

/-- A source that is the word null, a path with a quote and a line break, no source, and a value whose second number
comes back as an integer. -/
theorem parseAll_toJson_copy :
    let operations : List PatchOperation := [⟨.copy, "$.\"\n", some "null", .null⟩,
      ⟨.add, "$.prices", none, .array [.decimal ⟨1990, 2⟩, .decimal ⟨7, 0⟩, .object [("from", .bool true)]]⟩]
    (∃ found, parseAll (Tree.array (operations.map toTree)).toJson = .ok found ∧
      List.Forall₂ ReadsAs found operations) ∧
    ∀ operation ∈ operations, ∃ found, parseAll operation.toTree.toJson = .ok [found] ∧ found.ReadsAs operation :=
  parseAll_toJson (List.forall_mem_cons.mpr ⟨⟨⟨rfl, rfl, rfl, rfl, rfl⟩, by decide⟩,
    List.forall_mem_singleton.mpr ⟨⟨rfl, rfl, rfl, rfl, rfl⟩, by decide⟩⟩)

end PatchOperation

end TreeQuery
