import TreeQuery.Patch
import TreeQuery.Proofs.Edit.Obstacles
import TreeQuery.Proofs.Edit.Removing

/-!
# Moving a value

A move takes the value away before it is known whether the target can have it. If something stands in the way of the
target, the value is then in neither place.
-/

namespace TreeQuery

open TreeQuery.Tree

variable {names others init target : List String} {name last final : String} {tree node value : Tree}

/-! ### What a removal leaves -/

theorem Tree.child?_without_nil (last other : String) (tree : Tree) :
    (tree.without last []).child? (.property other false) =
      if other = last then none else tree.child? (.property other false) := by
  cases tree with
  | object entries =>
      by_cases hother : other = last
      · rw [hother, if_pos rfl]
        exact Entries.find?_erase last entries
      · rw [if_neg hother]
        exact Entries.find?_erase_of_ne hother entries
  | _ => simp [without, mapObjects, child?]

theorem Tree.child?_without_cons (last name other : String) (names : List String) (tree : Tree) :
    (tree.without last (name :: names)).child? (.property other false) =
      if other = name then (tree.child? (.property other false)).map (without last names)
      else tree.child? (.property other false) := by
  cases tree with
  | object entries =>
      by_cases hother : other = name
      · rw [hother, if_pos rfl]
        exact Entries.find?_modify_self name _ entries
      · rw [if_neg hother]
        exact Entries.find?_modify_of_ne hother _ entries
  | _ => simp [without, mapObjects, child?]

/-- What lies at the removed place or below it is gone; a scalar elsewhere is kept. -/
theorem Tree.descend?_without (hscalar : node.isScalar = true) :
    (tree.without last names).descend? (Segment.ofNames others) = some node ↔
      tree.descend? (Segment.ofNames others) = some node ∧ ¬ names ++ [last] <+: others := by
  induction others generalizing tree names with
  | nil =>
      obtain ⟨f, hf⟩ := without_eq_mapObjects last names
      have hsame : without last names tree = node ↔ tree = node := by
        constructor
        · rintro rfl
          rw [hf, isScalar_mapObjects] at hscalar
          rw [hf, mapObjects_of_isScalar hscalar]
        · rintro rfl
          rw [hf, mapObjects_of_isScalar hscalar]
      simp [Segment.ofNames, descend?, hsame]
  | cons other others ih =>
      rw [Segment.ofNames_cons, descend?_cons_eq_some, descend?_cons_eq_some]
      cases names with
      | nil =>
          rw [child?_without_nil]
          by_cases hother : other = last
          · simp [hother]
          · simp [hother, Ne.symm hother]
      | cons name names =>
          rw [child?_without_cons]
          by_cases hother : other = name
          · cases hchild : tree.child? (.property other false) with
            | none => simp [hother]
            | some child => simp [hother, ih, List.cons_prefix_cons]
          · simp [hother, Ne.symm hother, List.cons_prefix_cons]

theorem Tree.descend?_without_self (last : String) (names : List String) (tree : Tree) :
    (tree.without last names).descend? (Segment.ofNames (names ++ [last])) = none := by
  induction names generalizing tree with
  | nil => simp [Segment.ofNames, descend?, child?_without_nil]
  | cons name names ih =>
      rw [List.cons_append, Segment.ofNames_cons, descend?, child?_without_cons, if_pos rfl]
      cases tree.child? (.property name false) with
      | none => rfl
      | some child => exact ih child

theorem Tree.neverMaps_without (hnever : tree.neverMaps (Segment.ofNames others) = true) :
    (tree.without last names).neverMaps (Segment.ofNames others) = true := by
  induction others generalizing tree names with
  | nil => rfl
  | cons other others ih =>
      obtain ⟨f, hf⟩ := without_eq_mapObjects last names
      have hmaps : (tree.without last names).maps (.property other false) = false := by
        have hmaps := maps_of_neverMaps hnever
        rw [hf]
        cases tree <;> first | rfl | exact hmaps
      rw [Segment.ofNames_cons, neverMaps, hmaps, Bool.not_false, Bool.true_and, Option.all_eq_true]
      intro child hchild
      cases names with
      | nil =>
          rw [child?_without_nil] at hchild
          split at hchild
          · cases hchild
          · exact neverMaps_of_child? hnever hchild
      | cons name names =>
          rw [child?_without_cons] at hchild
          split at hchild
          · obtain ⟨old, hold, rfl⟩ := Option.map_eq_some_iff.mp hchild
            exact ih (neverMaps_of_child? hnever hold)
          · exact neverMaps_of_child? hnever hchild

theorem Tree.recordFree_without (hrecordFree : tree.recordFree = true) :
    (tree.without last names).recordFree = true := by
  induction names generalizing tree with
  | nil =>
      refine recordFree_mapObjects (fun entries hentries => ?_) hrecordFree
      refine everywhere_object.mpr ⟨rfl, fun entry hmem => ?_⟩
      exact (everywhere_object.mp hentries).2 entry ((List.mem_filter.mp hmem).1)
  | cons name names ih =>
      refine recordFree_mapObjects (fun entries hentries => ?_) hrecordFree
      have hvalues := (everywhere_object.mp hentries).2
      rw [Entries.modify]
      split
      · next old hfind =>
          refine everywhere_object.mpr ⟨rfl, fun entry hmem => ?_⟩
          rcases Entries.mem_insert hmem with rfl | hothers
          · exact ih (hvalues _ (Entries.mem_of_find? hfind))
          · exact hvalues entry hothers
      · exact hentries

theorem Tree.reaches_of_descend? (hdescend : tree.descend? (Segment.ofNames (names ++ [last])) = some value)
    (hpresent : value.isNull = false) : tree.reaches last names = true := by
  induction names generalizing tree with
  | nil =>
      obtain ⟨child, hchild, hbelow⟩ := descend?_cons_eq_some.mp hdescend
      obtain rfl : child = value := Option.some.inj hbelow
      obtain ⟨entries, rfl, hfind⟩ := child?_property_eq_some hchild
      simp [reaches, anyObject, hfind, hpresent]
  | cons name names ih =>
      obtain ⟨child, hchild, hbelow⟩ := descend?_cons_eq_some.mp hdescend
      obtain ⟨entries, rfl, hfind⟩ := child?_property_eq_some hchild
      simp [reaches, anyObject, hfind, ih hbelow]

theorem inTheWay_without :
    InTheWay target (tree.without last names) init node ↔
      InTheWay target tree init node ∧ ¬ names ++ [last] <+: init := by
  constructor
  · intro hway
    obtain ⟨hleads, hremains⟩ := (descend?_without hway.scalar).mp hway.leads
    exact ⟨{ hway with leads := hleads }, hremains⟩
  · rintro ⟨hway, hremains⟩
    exact { hway with leads := (descend?_without hway.scalar).mpr ⟨hway.leads, hremains⟩ }

section Assigning

variable {path : Path}

theorem Tree.isNull_without (hpresent : tree.isNull = false) : (tree.without last names).isNull = false := by
  obtain ⟨f, hf⟩ := without_eq_mapObjects last names
  rw [hf, isNull_mapObjects]
  exact hpresent

theorem Path.set_without_of_clear (hpath : path.segments = Segment.ofNames (others ++ [final]))
    (hrecordFree : tree.recordFree = true) (hnever : tree.neverMaps path.segments = true)
    (hpresent : tree.isNull = false)
    (hclear : ∀ init node, InTheWay (others ++ [final]) tree init node → names ++ [last] <+: init)
    (value : Tree) (store : Store) :
    let left := tree.without last names
    (path.set value left store).changed = .ok true ∧ (path.set value left store).store = store ∧
      (path.set value left store).result.descend? path.segments = some value ∧
      Assigned (left.addressOf path.segments) value left (path.set value left store).result := by
  have hfree : ∀ init node, ¬ InTheWay (others ++ [final]) (tree.without last names) init node := by
    intro init node hway
    obtain ⟨htree, hremains⟩ := inTheWay_without.mp hway
    exact hremains (hclear init node htree)
  have hleftNever : (tree.without last names).neverMaps path.segments = true := by
    rw [hpath] at hnever ⊢
    exact neverMaps_without hnever
  exact set_of_free hpath (recordFree_without hrecordFree) hleftNever (isNull_without hpresent) hfree value store

theorem Path.set_without_of_inTheWay (hpath : path.segments = Segment.ofNames (others ++ [final]))
    (hrecordFree : tree.recordFree = true) (hnever : tree.neverMaps path.segments = true)
    (hpresent : tree.isNull = false) (hway : InTheWay (others ++ [final]) tree init node)
    (hremains : ¬ names ++ [last] <+: init) (value : Tree) (store : Store) :
    path.set value (tree.without last names) store = ⟨tree.without last names, store,
      if init = others then .error (.mutation (.setProperty final node.kindName)) else .ok false⟩ := by
  have hleftNever : (tree.without last names).neverMaps path.segments = true := by
    rw [hpath] at hnever ⊢
    exact neverMaps_without hnever
  exact set_of_inTheWay hpath (recordFree_without hrecordFree) hleftNever (isNull_without hpresent)
    (inTheWay_without.mpr ⟨hway, hremains⟩) value store

end Assigning

/-! ### The operation -/

section Operation

variable {source target : Path} {root moved : Tree}

/-- Away from records a move is a removal followed by an assignment. -/
theorem PatchOperation.apply_move_eq {operation : PatchOperation} {sourceText : String}
    (hkind : operation.kind = .move) (hsourceText : operation.source = some sourceText)
    (hsource : Path.compile sourceText true = .ok source) (htarget : Path.compile operation.path true = .ok target)
    (hnames : source.segments = Segment.ofNames (names ++ [last])) (hrecordFree : root.recordFree = true)
    (hmoved : root.descend? source.segments = some moved) (hpresent : moved.isNull = false) (store : Store) :
    operation.apply root store = ofChange (target.set moved (root.without last names) store) := by
  have hplain : ∀ segment ∈ source.segments, segment.isPlain = true := fun segment hmem =>
    Segment.isPlain_of_mem_ofNames (hnames ▸ hmem)
  have heval : source.eval (store.snapshot root) = .ok moved := by
    rw [Store.snapshot, showRecords_of_recordFree _ hrecordFree]
    exact Segment.applyAll_of_descend? hplain hmoved fun _ _ _ => hpresent
  have hremove : source.remove root store = ⟨root.without last names, store, .ok true⟩ := by
    rw [Path.remove_eq hnames hrecordFree, reaches_of_descend? (hnames ▸ hmoved) hpresent]
  have hfound : (do
      let source ← Path.compile sourceText true
      return (source, ← source.eval (store.snapshot root)) : Except Fault (Path × Tree)) = .ok (source, moved) := by
    rw [hsource]
    change (do return (source, ← source.eval (store.snapshot root)) : Except Fault (Path × Tree)) = _
    rw [heval]
    rfl
  rw [apply, htarget]
  simp only [hkind, transfer, hsourceText, hfound, hremove, reduceCtorEq, if_false]

/-- **What a move does.** A move along properties, from one place without arrays on the way to another, keeps the
moved value if nothing stands in the way of the target once the source is gone: the value is then found at the target,
and nothing else has changed since its removal. If something does stand in the way, the value is in neither place; that
is reported as a fault only where the target's last property would have had to be added to a scalar. -/
theorem PatchOperation.apply_move {operation : PatchOperation} {sourceText : String}
    (hkind : operation.kind = .move) (hsourceText : operation.source = some sourceText)
    (hsource : Path.compile sourceText true = .ok source) (htarget : Path.compile operation.path true = .ok target)
    (hnames : source.segments = Segment.ofNames (names ++ [last]))
    (hothers : target.segments = Segment.ofNames (others ++ [final])) (hrecordFree : root.recordFree = true)
    (hnever : root.neverMaps target.segments = true) (hmoved : root.descend? source.segments = some moved)
    (hpresent : moved.isNull = false) (store : Store) :
    let applied := operation.apply root store
    applied.store = store ∧
      ((∀ init node, InTheWay (others ++ [final]) root init node → names ++ [last] <+: init) →
        applied.outcome = .ok .applied ∧ target.eval applied.root = .ok moved ∧
          Assigned ((root.without last names).addressOf target.segments) moved (root.without last names) applied.root) ∧
      ∀ init node, InTheWay (others ++ [final]) root init node → ¬ names ++ [last] <+: init →
        applied.outcome =
            (if init = others then .error (.mutation (.setProperty final node.kindName)) else .ok .applied) ∧
          applied.root = root.without last names ∧ applied.root ≠ root ∧
          applied.root.descend? source.segments = none ∧ applied.root.descend? target.segments = none ∧
          (node.isObjectText = false → target.eval applied.root = .ok .null) := by
  intro applied
  have happlied : applied = ofChange (target.set moved (root.without last names) store) :=
    apply_move_eq hkind hsourceText hsource htarget hnames hrecordFree hmoved hpresent store
  have hroot : root.isNull = false := isNull_of_descend? hmoved hpresent
  have hkept : (∀ init node, InTheWay (others ++ [final]) root init node → names ++ [last] <+: init) →
      applied.store = store ∧ applied.outcome = .ok .applied ∧ target.eval applied.root = .ok moved ∧
        Assigned ((root.without last names).addressOf target.segments) moved (root.without last names)
          applied.root := by
    intro hclear
    obtain ⟨hchanged, hstore, hfound, hassigned⟩ :=
      Path.set_without_of_clear hothers hrecordFree hnever hroot hclear moved store
    have hplain : ∀ segment ∈ target.segments, segment.isPlain = true := fun segment hmem =>
      Segment.isPlain_of_mem_ofNames (hothers ▸ hmem)
    rw [happlied, ofChange, hchanged]
    exact ⟨hstore, rfl, Segment.applyAll_of_descend? hplain hfound fun _ _ _ => hpresent, hassigned⟩
  have hlost : ∀ init node, InTheWay (others ++ [final]) root init node → ¬ names ++ [last] <+: init →
      applied = ⟨root.without last names, store,
        if init = others then .error (.mutation (.setProperty final node.kindName)) else .ok .applied⟩ := by
    intro init node hway hremains
    rw [happlied, Path.set_without_of_inTheWay hothers hrecordFree hnever hroot hway hremains, ofChange]
    split <;> rfl
  refine ⟨?_, fun hclear => (hkept hclear).2, fun init node hway hremains => ?_⟩
  · by_cases hclear : ∀ init node, InTheWay (others ++ [final]) root init node → names ++ [last] <+: init
    · exact (hkept hclear).1
    · obtain ⟨init, node, hway, hremains⟩ : ∃ init node,
          InTheWay (others ++ [final]) root init node ∧ ¬ names ++ [last] <+: init := by
        simpa only [Classical.not_forall, exists_prop] using hclear
      rw [hlost init node hway hremains]
  · have hgone := descend?_without_self last names root
    have hleftWay := inTheWay_without.mpr ⟨hway, hremains⟩
    rw [hlost init node hway hremains, hnames, hothers]
    refine ⟨rfl, rfl, ?_, hgone, descend?_of_inTheWay hleftWay, fun htext => ?_⟩
    · intro hsame
      rw [hnames, ← hsame, hgone] at hmoved
      cases hmoved
    · rw [Path.eval, hothers, Segment.applyAll_ofNames, readAll_of_inTheWay hleftWay htext]

/-- The number is not in the way of a target below it. -/
theorem PatchOperation.apply_move_below :
    let operation := PatchOperation.mk .move "$.a.b" (some "$.a") .null
    let root := Tree.object [("a", .integer 7), ("c", .bool true)]
    let source := Path.mk "$.a" [.property "a" false] false true
    let target := Path.mk "$.a.b" [.property "a" false, .property "b" false] false true
    root.recordFree = true ∧ root.neverMaps target.segments = true ∧
      root.descend? source.segments = some (.integer 7) ∧
      (operation.apply root Store.empty).outcome = .ok .applied ∧
      target.eval (operation.apply root Store.empty).root = .ok (.integer 7) := by
  intro operation root source target
  have hkind : operation.kind = .move := rfl
  have hsource : Path.compile "$.a" true = .ok source := Path.compile_dottedNames ["a"] (by simp) true
  have htarget : Path.compile operation.path true = .ok target := Path.compile_dottedNames ["a", "b"] (by simp) true
  have hnames : source.segments = Segment.ofNames ([] ++ ["a"]) := rfl
  have hothers : target.segments = Segment.ofNames (["a"] ++ ["b"]) := rfl
  have hmoved : root.descend? source.segments = some (.integer 7) := rfl
  have honly : ∀ init node, InTheWay (["a"] ++ ["b"]) root init node → [] ++ ["a"] <+: init := by
    intro init node hway
    cases init with
    | nil =>
        obtain rfl : root = node := Option.some.inj hway.leads
        cases hway.scalar
    | cons name init =>
        obtain ⟨rfl, -⟩ := List.cons_prefix_cons.mp hway.above
        exact (List.prefix_cons_inj "a").mpr List.nil_prefix
  obtain ⟨-, hkept, -⟩ :=
    apply_move hkind rfl hsource htarget hnames hothers rfl rfl hmoved rfl Store.empty
  obtain ⟨houtcome, heval, -⟩ := hkept honly
  exact ⟨rfl, rfl, hmoved, houtcome, heval⟩

/-- A number on the way, and the value is lost: silently where the target lies further down, with a fault where the
property would be the number's own. -/
theorem PatchOperation.apply_move_loses :
    let silent := PatchOperation.mk .move "$.b.c.d" (some "$.a") .null
    let loud := PatchOperation.mk .move "$.b.c" (some "$.a") .null
    let root := Tree.object [("a", .integer 1), ("b", .integer 2)]
    let left := Tree.object [("b", .integer 2)]
    let source := Path.mk "$.a" [.property "a" false] false true
    let further := Path.mk "$.b.c.d" [.property "b" false, .property "c" false, .property "d" false] false true
    let here := Path.mk "$.b.c" [.property "b" false, .property "c" false] false true
    (Path.compile "$.a" true = .ok source ∧ Path.compile silent.path true = .ok further ∧
        Path.compile loud.path true = .ok here) ∧
      (root.recordFree = true ∧ root.neverMaps further.segments = true ∧ root.neverMaps here.segments = true ∧
        root.descend? source.segments = some (.integer 1)) ∧
      (silent.apply root Store.empty = ⟨left, Store.empty, .ok .applied⟩ ∧ further.eval left = .ok .null) ∧
      loud.apply root Store.empty = ⟨left, Store.empty, .error (.mutation (.setProperty "c" "number"))⟩ ∧
      left ≠ root := by
  intro silent loud root left source further here
  have hsilent : silent.kind = .move := rfl
  have hloud : loud.kind = .move := rfl
  have hsource : Path.compile "$.a" true = .ok source := Path.compile_dottedNames ["a"] (by simp) true
  have hfurther : Path.compile silent.path true = .ok further := Path.compile_dottedNames ["b", "c", "d"] (by simp) true
  have hhere : Path.compile loud.path true = .ok here := Path.compile_dottedNames ["b", "c"] (by simp) true
  have hnames : source.segments = Segment.ofNames ([] ++ ["a"]) := rfl
  have hmoved : root.descend? source.segments = some (.integer 1) := rfl
  refine ⟨⟨hsource, hfurther, hhere⟩, ⟨rfl, rfl, rfl, hmoved⟩, ⟨?_, rfl⟩, ?_, by simp [left, root]⟩
  · exact apply_move_eq hsilent rfl hsource hfurther hnames rfl hmoved rfl Store.empty
  · exact apply_move_eq hloud rfl hsource hhere hnames rfl hmoved rfl Store.empty

end Operation

end TreeQuery
