import TreeQuery.Proofs.Edit.Refusing
import TreeQuery.Proofs.Path.Spelling
import TreeQuery.Proofs.Query.Properties

/-!
# What stands in the way of an assignment

An assignment along properties builds the objects that are missing, and objects take any property. So it is refused by
one thing alone: a scalar other than null, somewhere before the end of the path.
-/

namespace TreeQuery

open TreeQuery.Tree

variable {names others init target : List String} {name last : String} {tree node value : Tree} {store : Store}

theorem Segment.isPlain_of_mem_ofNames {segment : Segment} (hmem : segment ∈ ofNames names) :
    segment.isPlain = true := by
  obtain ⟨name, -, rfl⟩ := List.mem_map.mp hmem
  rfl

theorem Tree.isNull_of_descend? {segments : List Segment} (hnode : tree.descend? segments = some node)
    (hpresent : node.isNull = false) : tree.isNull = false := by
  cases segments with
  | nil =>
      obtain rfl : tree = node := Option.some.inj hnode
      exact hpresent
  | cons segment segments =>
      obtain ⟨child, hchild, -⟩ := descend?_cons_eq_some.mp hnode
      cases tree with
      | null =>
          rw [child?_null] at hchild
          cases hchild
      | _ => rfl

theorem Tree.child?_property_eq_some {child : Tree} (hchild : tree.child? (.property name false) = some child) :
    ∃ entries, tree = .object entries ∧ Entries.find? entries name = some child := by
  cases tree with
  | object entries => exact ⟨entries, rfl, hchild⟩
  | _ => cases hchild

theorem Segment.not_isOutside_of_mem_ofNames {segment : Segment} (hmem : segment ∈ ofNames names) :
    ¬ segment.isOutside := by
  obtain ⟨name, -, rfl⟩ := List.mem_map.mp hmem
  exact id

/-! ### Scalars on a path -/

/-- Where the names lead, above the end of the target, stands a scalar that takes no properties. -/
structure InTheWay (target : List String) (tree : Tree) (names : List String) (node : Tree) : Prop where
  above : names <+: target
  short : names ≠ target
  leads : tree.descend? (Segment.ofNames names) = some node
  scalar : node.isScalar = true
  present : node.isNull = false

theorem inTheWay_nil (hscalar : tree.isScalar = true) (hpresent : tree.isNull = false) :
    InTheWay (name :: target) tree [] tree where
  above := List.nil_prefix
  short := (List.cons_ne_nil name target).symm
  leads := rfl
  scalar := hscalar
  present := hpresent

theorem inTheWay_cons {child : Tree} (hchild : tree.child? (.property name false) = some child) :
    InTheWay (name :: target) tree (name :: names) node ↔ InTheWay target child names node := by
  have hleads : tree.descend? (Segment.ofNames (name :: names)) = child.descend? (Segment.ofNames names) := by
    rw [Segment.ofNames_cons, descend?, hchild, Option.bind_some]
  constructor
  · intro hway
    exact {
      above := (List.prefix_cons_inj name).mp hway.above
      short := fun heq => hway.short (congrArg (name :: ·) heq)
      leads := hleads ▸ hway.leads
      scalar := hway.scalar
      present := hway.present }
  · intro hway
    exact {
      above := (List.prefix_cons_inj name).mpr hway.above
      short := fun heq => hway.short (List.cons.inj heq).2
      leads := hleads.trans hway.leads
      scalar := hway.scalar
      present := hway.present }

/-- What stands in the way has nothing below it. -/
theorem descend?_of_inTheWay (hway : InTheWay target tree names node) :
    tree.descend? (Segment.ofNames target) = none := by
  induction names generalizing target tree with
  | nil =>
      obtain rfl : tree = node := Option.some.inj hway.leads
      have hscalar := hway.scalar
      cases target with
      | nil => exact absurd rfl hway.short
      | cons name target =>
          rw [Segment.ofNames_cons, descend?]
          cases tree <;> first | rfl | cases hscalar
  | cons name names ih =>
      cases target with
      | nil => exact absurd (List.prefix_nil.mp hway.above) (List.cons_ne_nil name names)
      | cons other target =>
          obtain ⟨rfl, -⟩ := List.cons_prefix_cons.mp hway.above
          obtain ⟨child, hchild, -⟩ := descend?_cons_eq_some.mp hway.leads
          rw [Segment.ofNames_cons, descend?, hchild]
          exact ih ((inTheWay_cons hchild).mp hway)

/-- Evaluation sees nothing below it either, unless it is a text that reads as an object. -/
theorem Tree.readAll_of_inTheWay (hway : InTheWay target tree names node) (htext : node.isObjectText = false)
    (dropNulls : Bool) : tree.readAll dropNulls target = null := by
  induction names generalizing target tree with
  | nil =>
      obtain rfl : tree = node := Option.some.inj hway.leads
      have hfree : tree.objectTextFree = true := objectTextFree_of_isScalar hway.scalar htext
      cases target with
      | nil => exact absurd rfl hway.short
      | cons name target => rw [readAll, property_of_isScalar hway.scalar hfree, readAll_null]
  | cons name names ih =>
      cases target with
      | nil => exact absurd (List.prefix_nil.mp hway.above) (List.cons_ne_nil name names)
      | cons other target =>
          obtain ⟨rfl, -⟩ := List.cons_prefix_cons.mp hway.above
          obtain ⟨child, hchild, hbelow⟩ := descend?_cons_eq_some.mp hway.leads
          obtain ⟨entries, rfl, hfind⟩ := child?_property_eq_some hchild
          have hpresent := isNull_of_descend? hbelow hway.present
          have hproperty : (object entries).property dropNulls name = child := by
            simp [property, Entries.property, hfind, hpresent]
          rw [readAll, hproperty]
          exact ih ((inTheWay_cons hchild).mp hway)

theorem Tree.neverMaps_empty (names : List String) : (object []).neverMaps (Segment.ofNames names) = true := by
  cases names <;> rfl

theorem not_inTheWay_empty : ¬ InTheWay target (.object []) names node := by
  intro hway
  cases names with
  | nil =>
      obtain rfl := Option.some.inj hway.leads
      cases hway.scalar
  | cons name names => cases hway.leads

theorem Tree.exists_object_of_free {segments : List Segment} (hrecordFree : tree.recordFree = true)
    (hnever : tree.neverMaps (.property name false :: segments) = true) (hpresent : tree.isNull = false)
    (hfree : ∀ init node, ¬ InTheWay (name :: target) tree init node) : ∃ entries, tree = .object entries := by
  cases hscalar : tree.isScalar with
  | true => exact absurd (inTheWay_nil hscalar hpresent) (hfree [] tree)
  | false =>
      cases tree with
      | object entries => exact ⟨entries, rfl⟩
      | array items => cases hnever
      | record handle entries => cases hrecordFree
      | _ => cases hscalar

/-! ### Walking -/

section Walking

variable {walk : Walk} {edit : Edit Tree} {entries : Entries Tree}

theorem Walk.visit_object (hbuilding : walk.building = .containers) :
    walk.visit (some (.property last false)) edit (Segment.ofNames (name :: names)) (.object entries) store =
      (enter (some (.object [])) (walk.visit (some (.property last false)) edit (Segment.ofNames names))
        ((Entries.find? entries name).getD .null) store).map fun child =>
          .object (Entries.insert name child entries) := by
  have hnext : ∃ next,
      (Segment.ofNames names).head?.or (some (.property last false)) = some (.property next false) := by
    cases names with
    | nil => exact ⟨last, rfl⟩
    | cons next names => exact ⟨next, rfl⟩
  obtain ⟨next, hnext⟩ := hnext
  rw [Segment.ofNames_cons, visit, hnext, step, container?_eq hbuilding rfl]
  exact atProperty_object _ name _ entries store

theorem Walk.visit_scalar (walk : Walk) (edit : Edit Tree) (next : Option Segment) (hscalar : node.isScalar = true) :
    walk.visit next edit (Segment.ofNames (name :: names)) node store = ⟨node, store, .ok false⟩ := by
  cases node <;> first | rfl | cases hscalar

/-- A scalar on the way refuses the value, with a fault where it would have had to take the value itself. -/
theorem Walk.changed_visit_of_inTheWay (hbuilding : walk.building = .containers)
    (hway : InTheWay (names ++ [last]) tree init node) :
    (walk.visit (some (.property last false)) (Edit.setLast value (.property last false)) (Segment.ofNames names) tree
        store).changed =
      if init = names then .error (.mutation (.setProperty last node.kindName)) else .ok false := by
  induction init generalizing names tree with
  | nil =>
      obtain rfl : tree = node := Option.some.inj hway.leads
      have hscalar := hway.scalar
      have hpresent := hway.present
      cases names with
      | nil =>
          rw [if_pos rfl]
          cases tree with
          | null => cases hpresent
          | array items => cases hscalar
          | object entries => cases hscalar
          | record handle entries => cases hscalar
          | _ => rfl
      | cons name names => rw [visit_scalar walk _ _ hscalar, if_neg (List.cons_ne_nil name names).symm]
  | cons first init ih =>
      cases names with
      | nil =>
          obtain ⟨rfl, hempty⟩ := List.cons_prefix_cons.mp hway.above
          obtain rfl := List.prefix_nil.mp hempty
          exact absurd rfl hway.short
      | cons name names =>
          obtain ⟨rfl, -⟩ := List.cons_prefix_cons.mp hway.above
          obtain ⟨child, hchild, hbelow⟩ := descend?_cons_eq_some.mp hway.leads
          obtain ⟨entries, rfl, hfind⟩ := child?_property_eq_some hchild
          have hpresent := isNull_of_descend? hbelow hway.present
          rw [visit_object hbuilding, hfind]
          simp only [Change.map, enter, Option.getD_some, hpresent, Bool.false_eq_true, if_false, List.cons.injEq,
            true_and]
          exact ih ((inTheWay_cons hchild).mp hway)

/-- Where nothing stands on the way, the value is taken. -/
theorem Walk.changed_visit_of_free (hbuilding : walk.building = .containers) (hrecordFree : tree.recordFree = true)
    (hnever : tree.neverMaps (Segment.ofNames (names ++ [last])) = true) (hpresent : tree.isNull = false)
    (hfree : ∀ init node, ¬ InTheWay (names ++ [last]) tree init node) :
    (walk.visit (some (.property last false)) (Edit.setLast value (.property last false)) (Segment.ofNames names) tree
        store).changed = .ok true := by
  induction names generalizing tree with
  | nil =>
      obtain ⟨entries, rfl⟩ := exists_object_of_free hrecordFree hnever hpresent hfree
      rfl
  | cons name names ih =>
      obtain ⟨entries, rfl⟩ := exists_object_of_free hrecordFree hnever hpresent hfree
      rw [visit_object hbuilding, Change.map, enter]
      by_cases hnull : (Entries.find? entries name).getD .null = .null
      -- The walk goes on in an object that was just built.
      · rw [hnull, Tree.isNull, if_pos rfl, Option.getD_some]
        exact ih rfl (neverMaps_empty _) rfl fun _ _ => not_inTheWay_empty
      · have hfound : ∃ child, (Tree.object entries).child? (.property name false) = some child ∧ child.isNull = false :=
          exists_child?_of_getD_ne hnull
        obtain ⟨child, hchild, hchildPresent⟩ := hfound
        have hfind : Entries.find? entries name = some child := hchild
        have hchildFree : child.recordFree = true := everywhere_of_child? hrecordFree hchild
        rw [hfind, Option.getD_some, hchildPresent, if_neg Bool.false_ne_true]
        exact ih hchildFree (neverMaps_of_child? hnever hchild) hchildPresent fun init node hway =>
          hfree (name :: init) node ((inTheWay_cons hchild).mpr hway)

end Walking

/-! ### Assigning -/

section Assigning

variable {path : Path}

theorem Path.set_ofNames (hpath : path.segments = Segment.ofNames (names ++ [last])) (hpresent : tree.isNull = false)
    (value : Tree) (store : Store) :
    path.set value tree store = (path.walk tree .containers).visit (some (.property last false))
      (Edit.setLast value (.property last false)) (Segment.ofNames names) tree store :=
  set_eq (hpath.trans (Segment.ofNames_concat names last)) hpresent store

/-- With nothing in the way the value is assigned. -/
theorem Path.set_of_free (hpath : path.segments = Segment.ofNames (names ++ [last]))
    (hrecordFree : tree.recordFree = true) (hnever : tree.neverMaps path.segments = true)
    (hpresent : tree.isNull = false) (hfree : ∀ init node, ¬ InTheWay (names ++ [last]) tree init node)
    (value : Tree) (store : Store) :
    (path.set value tree store).changed = .ok true ∧ (path.set value tree store).store = store ∧
      (path.set value tree store).result.descend? path.segments = some value ∧
      Assigned (tree.addressOf path.segments) value tree (path.set value tree store).result := by
  have hplain : ∀ segment ∈ Segment.ofNames (names ++ [last]), segment.isPlain = true := fun _ =>
    Segment.isPlain_of_mem_ofNames
  have hchanged : (path.set value tree store).changed = .ok true := by
    rw [set_ofNames hpath hpresent]
    exact Walk.changed_visit_of_free rfl hrecordFree (hpath ▸ hnever) hpresent hfree
  rw [hpath, Segment.ofNames_concat] at hnever ⊢
  rw [Segment.ofNames_concat] at hplain
  rw [set_ofNames hpath hpresent] at hchanged ⊢
  obtain ⟨hassigned, hstore⟩ := Walk.assigns_visit rfl hplain tree store hrecordFree hnever hchanged
  exact ⟨hchanged, hstore, Walk.reaches_visit rfl hplain tree store hrecordFree hnever hchanged, hassigned⟩

/-- What stands in the way refuses the value, and the tree is left alone. -/
theorem Path.set_of_inTheWay (hpath : path.segments = Segment.ofNames (names ++ [last]))
    (hrecordFree : tree.recordFree = true) (hnever : tree.neverMaps path.segments = true)
    (hpresent : tree.isNull = false) (hway : InTheWay (names ++ [last]) tree init node) (value : Tree) (store : Store) :
    path.set value tree store = ⟨tree, store,
      if init = names then .error (.mutation (.setProperty last node.kindName)) else .ok false⟩ := by
  have hplain : ∀ segment ∈ Segment.ofNames (names ++ [last]), segment.isPlain = true := fun _ =>
    Segment.isPlain_of_mem_ofNames
  have hinside : ∀ segment ∈ Segment.ofNames (names ++ [last]), ¬ segment.isOutside := fun _ =>
    Segment.not_isOutside_of_mem_ofNames
  have hchanged : (path.set value tree store).changed =
      if init = names then .error (.mutation (.setProperty last node.kindName)) else .ok false := by
    rw [set_ofNames hpath hpresent]
    exact Walk.changed_visit_of_inTheWay rfl hway
  have hrefused : (path.set value tree store).changed ≠ .ok true := by
    rw [hchanged]
    split <;> simp
  rw [hpath, Segment.ofNames_concat] at hnever
  rw [Segment.ofNames_concat] at hplain hinside
  rw [set_ofNames hpath hpresent] at hrefused
  obtain ⟨hresult, hstore⟩ := Walk.refuses_visit rfl hplain tree store hrecordFree hnever hrefused
  rw [← set_ofNames hpath hpresent] at hresult hstore
  -- Nothing was built: behind what is built some index is refused, and here are none.
  have hsame : (path.set value tree store).result = tree := by
    refine hresult.resolve_right ?_
    rintro ⟨before, next, rest, hsegments, -, -, ⟨outside, hmem, houtside⟩, -⟩
    rw [hsegments] at hinside
    exact hinside outside (List.mem_append_right before hmem) houtside
  calc
    path.set value tree store = ⟨(path.set value tree store).result, (path.set value tree store).store,
        (path.set value tree store).changed⟩ := rfl
    _ = _ := by rw [hsame, hstore, hchanged]

end Assigning

end TreeQuery
