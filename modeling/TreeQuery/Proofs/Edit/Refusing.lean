import TreeQuery.Proofs.Edit.Framing

/-!
# Refused assignments

An assignment that fails or reports no change has written nothing. But the containers on the way to a place are built
before it is known whether the place can be had, and they stay. A container that was just built takes any property,
so it is an index that is refused after it: a negative one, or one too far past the end.
-/

namespace TreeQuery

open TreeQuery.Tree

variable {segment next last : Segment} {segments : List Segment} {value tree before after : Tree} {edit : Edit Tree}
  {store : Store}

/-- An index that no empty array has a place for. -/
def Segment.isOutside : Segment → Prop
  | index number => ¬ (0 ≤ number ∧ number < maxPadding)
  | _ => False

/-- An empty container was put where some of the segments lead to nothing or to null. It is the one that the next
segment needs, and an index that comes later has no place in it. -/
def Built (segments : List Segment) (before after : Tree) : Prop :=
  ∃ init next rest, segments = init ++ next :: rest ∧ init ≠ [] ∧
    (∀ node, before.descend? init = some node → node = .null) ∧
    (∃ outside ∈ next :: rest, outside.isOutside) ∧
    Assigned (before.addressOf init) next.container before after

/-- Where the edit is refused, nothing has changed but for containers on the way. -/
def Edit.Refuses (edit : Edit Tree) (segments : List Segment) : Prop :=
  ∀ (tree : Tree) (store : Store), tree.recordFree = true → tree.neverMaps segments = true →
    (edit tree store).changed ≠ .ok true →
      ((edit tree store).result = tree ∨ Built segments tree (edit tree store).result) ∧ (edit tree store).store = store

/-! ### What was built below a node -/

section Below

variable {child new : Tree} {rebuild : Tree → Tree}

theorem Tree.child?_of_getD_under? (hplain : segment.isPlain = true) (hmaps : tree.maps segment = false)
    (hnull : ((tree.under? (segment.stepFrom tree)).getD .null) = .null) {found : Tree}
    (hfound : tree.child? segment = some found) : found = .null := by
  rw [Segment.under?_stepFrom hplain hmaps, hfound] at hnull
  exact hnull

theorem Built.here (hplain : segment.isPlain = true) (hmaps : tree.maps segment = false)
    (hrebuilds : Rebuilds (segment.stepFrom tree) tree rebuild)
    (hnull : ((tree.under? (segment.stepFrom tree)).getD .null) = .null)
    (houtside : ∃ outside ∈ next :: segments, outside.isOutside) :
    Built (segment :: next :: segments) tree (rebuild next.container) := by
  refine ⟨[segment], next, segments, rfl, List.cons_ne_nil _ _, ?_, houtside, ?_⟩
  · intro node hnode
    obtain ⟨found, hfound, hdescend⟩ := descend?_cons_eq_some.mp hnode
    obtain rfl : found = node := Option.some.inj hdescend
    exact child?_of_getD_under? hplain hmaps hnull hfound
  · exact .below (hrebuilds.others _) (hrebuilds.child _) (.here next.container _)

theorem Built.below (hplain : segment.isPlain = true) (hmaps : tree.maps segment = false)
    (hrebuilds : Rebuilds (segment.stepFrom tree) tree rebuild)
    (hbuilt : Built segments ((tree.under? (segment.stepFrom tree)).getD .null) new) :
    Built (segment :: segments) tree (rebuild new) := by
  obtain ⟨init, next, rest, rfl, hne, hmissing, houtside, hassigned⟩ := hbuilt
  refine ⟨segment :: init, next, rest, rfl, List.cons_ne_nil _ _, ?_, houtside, ?_⟩
  · intro node hnode
    obtain ⟨found, hfound, hdescend⟩ := descend?_cons_eq_some.mp hnode
    refine hmissing node ?_
    rwa [Segment.under?_stepFrom hplain hmaps, hfound, Option.getD_some]
  · exact .below (hrebuilds.others _) (hrebuilds.child _) hassigned

theorem Built.of_empty (hnext : next.isPlain = true) (hbuilt : Built (next :: segments) next.container after) :
    Built (next :: segments) .null after := by
  obtain ⟨init, following, rest, heq, hne, -, houtside, hassigned⟩ := hbuilt
  obtain ⟨first, init, rfl⟩ := List.exists_cons_of_ne_nil hne
  obtain ⟨rfl, -⟩ := List.cons.inj heq
  refine ⟨next :: init, following, rest, heq, hne, ?_, houtside, ?_⟩
  · intro node hnode
    obtain ⟨found, hfound, -⟩ := descend?_cons_eq_some.mp hnode
    rw [child?_null] at hfound
    cases hfound
  · rw [← addressOf_container hnext]
    exact hassigned.of_empty (Segment.under?_container hnext)

theorem Tree.at?_addressOf (hplain : ∀ segment ∈ segments, segment.isPlain = true)
    (hnever : tree.neverMaps segments = true) : tree.at? (tree.addressOf segments) = tree.descend? segments := by
  induction segments generalizing tree with
  | nil => rfl
  | cons segment segments ih =>
      obtain ⟨hsegment, hsegments⟩ := List.forall_mem_cons.mp hplain
      rw [addressOf, at?, descend?, Segment.under?_stepFrom hsegment (maps_of_neverMaps hnever)]
      cases hchild : tree.child? segment with
      | none => rfl
      | some child => exact ih hsegments (neverMaps_of_child? hnever hchild)

theorem Tree.neverMaps_append {init rest : List Segment} (hnever : tree.neverMaps (init ++ rest) = true) :
    tree.neverMaps init = true := by
  induction init generalizing tree with
  | nil => rfl
  | cons segment init ih =>
      rw [List.cons_append, neverMaps, Bool.and_eq_true, Option.all_eq_true] at hnever
      rw [neverMaps, Bool.and_eq_true, Option.all_eq_true]
      exact ⟨hnever.1, fun child hchild => ih (hnever.2 child hchild)⟩

/-- A container is built in the place of nothing or null, so it can be told that one was built. -/
theorem Built.ne (hbuilt : Built segments before after) (hplain : ∀ segment ∈ segments, segment.isPlain = true)
    (hnever : before.neverMaps segments = true) : after ≠ before := by
  obtain ⟨init, next, rest, rfl, -, hmissing, -, hassigned⟩ := hbuilt
  rintro rfl
  have hwritten := hassigned.written
  rw [at?_addressOf (fun segment hmem => hplain segment (List.mem_append_left _ hmem)) (neverMaps_append hnever)]
    at hwritten
  have hnull := hmissing _ hwritten
  cases next <;> cases hnull

end Below

/-! ### Along a path -/

theorem Edit.refuses_setLast (hplain : last.isPlain = true) : (setLast value last).Refuses [last] := by
  intro tree store hrecordFree hnever hrefused
  rcases setLast_cases hplain hrecordFree (maps_of_neverMaps hnever) value store with
    ⟨changed, -, hset⟩ | ⟨rebuild, -, hset⟩
  · rw [hset]
    exact ⟨.inl rfl, rfl⟩
  · rw [hset] at hrefused
    exact absurd rfl hrefused

theorem Edit.Refuses.step {walk : Walk} (hbuilding : walk.building = .containers)
    (hrefuses : edit.Refuses (next :: segments)) (hplain : segment.isPlain = true) (hnext : next.isPlain = true)
    (hstarts : ∀ store, (edit next.container store).changed ≠ .ok true →
      ∃ outside ∈ next :: segments, outside.isOutside) :
    (walk.step (some next) edit segment).Refuses (segment :: next :: segments) := by
  intro tree store hrecordFree hnever hrefused
  have hmaps := maps_of_neverMaps hnever
  rcases Walk.step_cases (Walk.container?_eq hbuilding hnext) hplain hrecordFree hmaps with
    ⟨changed, -, hstep⟩ | ⟨rebuild, hrebuilds, hstep⟩
  · rw [hstep]
    exact ⟨.inl rfl, rfl⟩
  · rw [hstep] at hrefused ⊢
    obtain ⟨hchildFree, hchildNever⟩ := getD_under? hplain hrecordFree hnever
    by_cases hnull : (tree.under? (segment.stepFrom tree)).getD .null = .null
    -- The walk goes on in a container that was just built.
    · simp only [hnull, Walk.enter, Tree.isNull, if_true, Option.getD_some, Change.map] at hrefused ⊢
      obtain ⟨hresult, hstore⟩ := hrefuses next.container store next.recordFree_container
        (Segment.neverMaps_container hnext segments) hrefused
      refine ⟨.inr ?_, hstore⟩
      rcases hresult with hsame | hbuilt
      · rw [hsame]
        exact .here hplain hmaps hrebuilds hnull (hstarts store hrefused)
      · refine .below hplain hmaps hrebuilds ?_
        rw [hnull]
        exact hbuilt.of_empty hnext
    · have hpresent : ((tree.under? (segment.stepFrom tree)).getD .null).isNull = false := by
        cases hchild : (tree.under? (segment.stepFrom tree)).getD .null <;> first | rfl | exact absurd hchild hnull
      simp only [Walk.enter, hpresent, Bool.false_eq_true, if_false, Change.map] at hrefused ⊢
      obtain ⟨hresult, hstore⟩ := hrefuses _ store hchildFree hchildNever hrefused
      refine ⟨?_, hstore⟩
      rcases hresult with hsame | hbuilt
      · refine .inl ?_
        rw [hsame]
        cases hchild : tree.under? (segment.stepFrom tree) with
        | none =>
            rw [hchild] at hnull
            exact absurd rfl hnull
        | some child => exact hrebuilds.same child hchild
      · exact .inr (.below hplain hmaps hrebuilds hbuilt)

theorem Walk.exists_isOutside {walk : Walk} (hbuilding : walk.building = .containers)
    (hplain : ∀ segment ∈ segments ++ [last], segment.isPlain = true) {first : Segment} {others : List Segment}
    (hsegments : segments ++ [last] = first :: others)
    (hrefused : (walk.visit (some last) (Edit.setLast value last) segments first.container store).changed ≠ .ok true) :
    ∃ outside ∈ first :: others, outside.isOutside := by
  by_cases houtside : ∃ outside ∈ first :: others, outside.isOutside
  · exact houtside
  · refine absurd (changed_visit hbuilding hplain (fun index hmem => ?_) first (by rw [hsegments]; rfl)) hrefused
    by_cases hinside : 0 ≤ index ∧ index < maxPadding
    · exact hinside
    · exact absurd ⟨.index index, hsegments ▸ hmem, hinside⟩ houtside

theorem Walk.refuses_visit {walk : Walk} (hbuilding : walk.building = .containers)
    (hplain : ∀ segment ∈ segments ++ [last], segment.isPlain = true) :
    (walk.visit (some last) (Edit.setLast value last) segments).Refuses (segments ++ [last]) := by
  induction segments with
  | nil => exact Edit.refuses_setLast (hplain last (by simp))
  | cons segment segments ih =>
      obtain ⟨hsegment, hsegments⟩ := List.forall_mem_cons.mp hplain
      cases segments with
      | nil =>
          exact (ih hsegments).step hbuilding hsegment (hsegments last (by simp)) fun _ =>
            exists_isOutside hbuilding hsegments rfl
      | cons next segments =>
          exact (ih hsegments).step hbuilding hsegment (hsegments next (by simp)) fun _ =>
            exists_isOutside hbuilding hsegments rfl

/-- **A refused assignment writes nothing.** Along a plain path that reads no property from an array of the document,
the document stays as it was, unless an empty container was built in the place of nothing or null before an index that
has no place in it. Without negative and far indices behind the first segment, it always stays as it was. -/
theorem Path.set_refused {path : Path} (hplain : ∀ segment ∈ path.segments, segment.isPlain = true)
    {root value : Tree} {store : Store} (hrecordFree : root.recordFree = true)
    (hnever : root.neverMaps path.segments = true) (hrefused : (path.set value root store).changed ≠ .ok true) :
    (path.set value root store).store = store ∧
      ((path.set value root store).result ≠ root ↔ Built path.segments root (path.set value root store).result) ∧
      ((∀ index : Int, .index index ∈ path.segments.tail → 0 ≤ index ∧ index < twoTo 20) →
        (path.set value root store).result = root) := by
  have hresult : ((path.set value root store).result = root ∨
      Built path.segments root (path.set value root store).result) ∧ (path.set value root store).store = store := by
    by_cases hnonempty : path.segments = []
    · cases hnull : root.isNull <;> simp [set, editLast, hnull, hnonempty, Edit.skip, Edit.fail]
    · obtain ⟨init, last, hsegments⟩ := exists_segments hnonempty
      cases hnull : root.isNull with
      | true =>
          rw [set, editLast, if_pos hnull]
          exact ⟨.inl rfl, rfl⟩
      | false =>
          rw [set_eq hsegments hnull] at hrefused ⊢
          rw [hsegments] at hplain hnever ⊢
          exact Walk.refuses_visit rfl hplain root store hrecordFree hnever hrefused
  obtain ⟨hresult, hstore⟩ := hresult
  refine ⟨hstore, ⟨fun hne => hresult.resolve_left hne, fun hbuilt => hbuilt.ne hplain hnever⟩, fun hinside => ?_⟩
  rcases hresult with hsame | ⟨init, next, rest, hsegments, hne, -, ⟨outside, hmem, houtside⟩, -⟩
  · exact hsame
  · obtain ⟨first, init, rfl⟩ := List.exists_cons_of_ne_nil hne
    cases outside with
    | index number =>
        rw [hsegments] at hinside
        exact absurd (hinside number (List.mem_append_right init hmem)) houtside
    | _ => exact houtside.elim

/-- A string on the way refuses a property, and the list around it stays. -/
theorem Path.set_refused_string :
    let path := Path.mk "$.list[0].name.first" [.property "list" false, .index 0, .property "name" false,
      .property "first" false] false true
    let root := Tree.object [("list", .array [.object [("name", .string "x")]])]
    root.recordFree = true ∧ root.neverMaps path.segments = true ∧
      (path.set (.integer 7) root Store.empty).changed = .error (.mutation (.setProperty "first" "string")) ∧
      (path.set (.integer 7) root Store.empty).store = Store.empty ∧
      (path.set (.integer 7) root Store.empty).result = root := by
  intro path root
  have hplain : ∀ segment ∈ path.segments, segment.isPlain = true := by simp [path, segments, Segment.isPlain]
  have hchanged : (path.set (.integer 7) root Store.empty).changed =
      .error (.mutation (.setProperty "first" "string")) := rfl
  have hrefused : (path.set (.integer 7) root Store.empty).changed ≠ .ok true := by
    rw [hchanged]
    simp
  obtain ⟨hstore, -, hsame⟩ := set_refused hplain rfl rfl hrefused
  refine ⟨rfl, rfl, hchanged, hstore, hsame fun index hmem => ?_⟩
  obtain rfl : index = 0 := by simpa [path, segments] using hmem
  decide

/-- The array for the index is there although the index was refused. -/
theorem Path.set_refused_builds :
    let root := Tree.object []
    let before := Path.mk "$.a[-1]" [.property "a" false, .index (-1)] false true
    let beyond := Path.mk "$.a[1048576]" [.property "a" false, .index 1048576] false true
    (root.recordFree = true ∧ root.neverMaps before.segments = true ∧ root.neverMaps beyond.segments = true) ∧
      ((before.set (.integer 1) root Store.empty).changed = .ok false ∧
        (before.set (.integer 1) root Store.empty).result ≠ root) ∧
      (beyond.set (.integer 1) root Store.empty).changed = .error (.mutation (.tooFar 1048576 0)) ∧
      (beyond.set (.integer 1) root Store.empty).result ≠ root := by
  intro root before beyond
  have hbefore : before.set (.integer 1) root Store.empty = ⟨.object [("a", .array [])], Store.empty, .ok false⟩ := rfl
  have hbeyond : beyond.set (.integer 1) root Store.empty =
      ⟨.object [("a", .array [])], Store.empty, .error (.mutation (.tooFar 1048576 0))⟩ := rfl
  have hbuilt : Tree.object [("a", .array [])] ≠ root := by simp [root]
  rw [hbefore, hbeyond]
  exact ⟨⟨rfl, rfl, rfl⟩, ⟨rfl, hbuilt⟩, rfl, hbuilt⟩

end TreeQuery
