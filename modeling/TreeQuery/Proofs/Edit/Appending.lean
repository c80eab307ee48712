import TreeQuery.Edit.Append
import TreeQuery.Proofs.Edit.Selections
import TreeQuery.Proofs.Query.Missing

/-!
# Appending to an array

Values are appended to the array that a plain path leads to. The walk tells by itself whether it came to an array; it
does exactly where evaluation finds one. If not, the document stays as it is.
-/

namespace TreeQuery

open TreeQuery.Tree

variable {segments : List Segment} {path : Path} {values items : List Tree} {root tree node : Tree}
  {store : Store}

/-- Evaluation finds an array exactly where the segments lead to one. -/
theorem Segment.applyAll_eq_array_iff {dropNulls : Bool} (hplain : ∀ segment ∈ segments, segment.isPlain = true)
    (hrecordFree : tree.recordFree = true) (htext : tree.objectTextFree = true)
    (hnever : tree.neverMaps segments = true) :
    applyAll root dropNulls segments tree = .ok (.array items) ↔ tree.descend? segments = some (.array items) := by
  constructor
  · intro hfound
    exact descend?_of_applyAll hplain hrecordFree htext hnever hfound rfl
  · intro hdescend
    exact applyAll_of_descend? hplain hdescend fun _ _ _ => rfl

/-- What is no array is refused. -/
theorem Edit.exists_append_eq (text : String) (values : List Tree) (harray : ∀ items, node ≠ .array items)
    (store : Store) : ∃ fault, append text values node store = ⟨node, store, .error (.mutation fault)⟩ := by
  cases node with
  | array items => exact absurd rfl (harray items)
  | _ => exact ⟨_, rfl⟩

theorem Path.append_eq (hvalues : values ≠ []) (hnull : root.isNull = false) :
    path.append values root store =
      let change := (path.walk root .nothing).visit none (Edit.append path.text values) path.segments root store
      match change.changed with
      | .ok false => { change with changed := .error (.mutation (.notFound path.text)) }
      | _ => change := by
  have hempty : values.isEmpty = false := by simpa using hvalues
  rw [append, hempty, hnull]
  rfl

theorem Path.append_of_descend? (hvalues : values ≠ []) (hnull : root.isNull = false)
    (hplain : ∀ segment ∈ path.segments, segment.isPlain = true)
    (hdescend : root.descend? path.segments = some (.array items)) :
    path.append values root store =
      ⟨(Tree.array (items ++ values)).putAt (root.addressOf path.segments) root, store, .ok true⟩ := by
  rw [append_eq hvalues hnull, Walk.visit_of_descend? rfl hplain hdescend]
  rfl

/-- Where there is no array, the fault comes from the node that is there, or is made in its absence. -/
theorem Path.exists_append_eq (hvalues : values ≠ []) (hnull : root.isNull = false)
    (hplain : ∀ segment ∈ path.segments, segment.isPlain = true) (hrecordFree : root.recordFree = true)
    (hnever : root.neverMaps path.segments = true)
    (harray : ∀ items, root.descend? path.segments ≠ some (.array items)) (store : Store) :
    ∃ fault, path.append values root store = ⟨root, store, .error (.mutation fault)⟩ := by
  rw [append_eq hvalues hnull]
  cases hdescend : root.descend? path.segments with
  | none =>
      rw [Walk.visit_of_descend?_eq_none rfl hplain hrecordFree hnever hdescend]
      exact ⟨_, rfl⟩
  | some node =>
      have hnode : ∀ items, node ≠ .array items := by
        rintro items rfl
        exact harray items hdescend
      obtain ⟨fault, hrefused⟩ := Edit.exists_append_eq path.text values hnode store
      rw [Walk.visit_of_descend? rfl hplain hdescend, hrefused]
      simp only [Change.map, putAt_self (at?_of_descend? hplain hdescend)]
      exact ⟨fault, rfl⟩

/-- **Values are appended to one array, or nothing happens.** Let a plain path read no property from an array of the
document, which is not null and holds no text of an object. Values can be appended exactly if evaluation finds an array.
Then it finds the old items followed by the values afterwards, and the array is all that changed. Otherwise there is a
fault of the edit, and the document is the one from before. -/
theorem Path.append_along {path : Path} (hplain : ∀ segment ∈ path.segments, segment.isPlain = true)
    {values : List Tree} (hvalues : values ≠ []) {root : Tree} (hnull : root.isNull = false)
    (hrecordFree : root.recordFree = true) (htext : root.objectTextFree = true)
    (hnever : root.neverMaps path.segments = true) (store : Store) :
    let after := path.append values root store
    after.store = store ∧
      ((∃ changed, after.changed = .ok changed) ↔ ∃ items, path.eval root = .ok (.array items)) ∧
      (∀ items, path.eval root = .ok (.array items) →
        let grown := Tree.array (items ++ values)
        after.changed = .ok true ∧ path.eval after.result = .ok grown ∧
          path.eval (store.snapshot after.result) = .ok (store.snapshot grown) ∧
          after.result = grown.putAt (root.addressOf path.segments) root ∧
          Assigned (root.addressOf path.segments) grown root after.result) ∧
      ((∀ items, path.eval root ≠ .ok (.array items)) →
        after.result = root ∧ ∃ fault, after.changed = .error (.mutation fault)) := by
  have hfinds (items : List Tree) :
      path.eval root = .ok (.array items) ↔ root.descend? path.segments = some (.array items) :=
    Segment.applyAll_eq_array_iff hplain hrecordFree htext hnever
  by_cases hfound : ∃ items, path.eval root = .ok (.array items)
  · obtain ⟨items, hitems⟩ := hfound
    have hdescend := (hfinds items).mp hitems
    rw [append_of_descend? hvalues hnull hplain hdescend]
    refine ⟨rfl, ⟨fun _ => ⟨items, hitems⟩, fun _ => ⟨true, rfl⟩⟩, ?_, fun hnone => absurd hitems (hnone items)⟩
    intro items' hitems'
    obtain rfl : items = items' := Tree.array.inj (Except.ok.inj (hitems.symm.trans hitems'))
    have hreaches : ((Tree.array (items ++ values)).putAt (root.addressOf path.segments) root).descend? path.segments =
        some (.array (items ++ values)) := descend?_putAt hplain hdescend
    exact ⟨rfl, Segment.applyAll_of_descend? hplain hreaches fun _ _ _ => rfl,
      Segment.applyAll_of_descend? hplain (descend?_showRecords _ hreaches) fun _ _ _ => rfl, rfl,
      assigned_putAt (at?_of_descend? hplain hdescend) _⟩
  · have hnone : ∀ items, path.eval root ≠ .ok (.array items) := fun items hitems => hfound ⟨items, hitems⟩
    have hnowhere : ∀ items, root.descend? path.segments ≠ some (.array items) := fun items hdescend =>
      hnone items ((hfinds items).mpr hdescend)
    obtain ⟨fault, hrefused⟩ := exists_append_eq hvalues hnull hplain hrecordFree hnever hnowhere store
    rw [hrefused]
    refine ⟨rfl, ⟨?_, fun hitems => absurd hitems hfound⟩, fun items hitems => absurd hitems (hnone items),
      fun _ => ⟨rfl, fault, rfl⟩⟩
    rintro ⟨changed, hchanged⟩
    cases hchanged

/-- The last row is an array. The first row is a number, which evaluation finds at its own index 0, where no walk
comes. -/
theorem Path.append_along_rows :
    let last := Path.mk "$.rows[-1]" [.property "rows" false, .index (-1)] false true
    let first := Path.mk "$.rows[0][0]" [.property "rows" false, .index 0, .index 0] false true
    let values := [Tree.integer 3, .null]
    let root := Tree.object [("rows", .array [.integer 1, .array [.integer 2]])]
    let grown := Tree.array [.integer 2, .integer 3, .null]
    let after := last.append values root Store.empty
    let refused := first.append values root Store.empty
    values ≠ [] ∧ root.isNull = false ∧ root.recordFree = true ∧ root.objectTextFree = true ∧
      root.neverMaps last.segments = true ∧ root.neverMaps first.segments = true ∧
      after.changed = .ok true ∧ last.eval after.result = .ok grown ∧
      after.result = .object [("rows", .array [.integer 1, grown])] ∧
      first.eval root = .ok (.integer 1) ∧ refused.result = root ∧ ∃ fault, refused.changed = .error (.mutation fault) := by
  intro last first values root grown after refused
  have hplain : ∀ segment ∈ last.segments, segment.isPlain = true := by simp [last, segments, Segment.isPlain]
  have hplain' : ∀ segment ∈ first.segments, segment.isPlain = true := by simp [first, segments, Segment.isPlain]
  have hvalues : values ≠ [] := List.cons_ne_nil _ _
  have htext : root.objectTextFree = true := rfl
  have hfirst : first.eval root = .ok (.integer 1) := rfl
  obtain ⟨-, -, hgrown, -⟩ := append_along hplain hvalues rfl rfl htext rfl Store.empty
  obtain ⟨hchanged, heval, -, hresult, -⟩ := hgrown [.integer 2] rfl
  obtain ⟨-, -, -, hrefused⟩ := append_along hplain' hvalues rfl rfl htext rfl Store.empty
  have hnone : ∀ items, first.eval root ≠ .ok (.array items) := by
    intro items hitems
    rw [hfirst] at hitems
    cases hitems
  exact ⟨hvalues, rfl, rfl, htext, rfl, rfl, hchanged, heval, hresult, hfirst, hrefused hnone⟩

end TreeQuery
