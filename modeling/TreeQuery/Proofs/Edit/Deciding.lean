import TreeQuery.Proofs.Edit.Commuting
import TreeQuery.Proofs.Query.Positions
import TreeQuery.Proofs.Query.Root

/-!
# Filtered assignments

An assignment behind a filter writes into the objects that pass the filter. Whether an object passes is decided on the
document as it was before the assignment, even if the filter refers to places that are written in the meantime.
-/

namespace TreeQuery

open TreeQuery.Tree

/-! ### Where segments lead -/

/-- Segments that select any child at most once and look no deeper. -/
def Segment.isShallow : Segment → Bool
  | property _ false | index .. | wildcard false _ => true
  | slice _ _ step => decide (0 < step)
  | _ => false

/-- Whether a segment selects the child behind a step of a node. -/
def Segment.Selects : Segment → Tree → Step → Prop
  | .property name false, .object _, .key key => key = name
  | .index number, .array items, .position place => resolveIndex items.length number = some place
  | .index number, .object _, .key key => key = toString number
  | .wildcard false _, _, _ => True
  | .slice start last step, .array items, .position place =>
    place ∈ (slicePositions items.length start last step).getD []
  | _, _, _ => False

/-- The nodes that shallow segments lead to, with their addresses. A property is taken from every object that an array
holds at any depth. -/
inductive Tree.Reaches : List Segment → Tree → Address → Tree → Prop
  | here (tree : Tree) : Reaches [] tree [] tree
  | child {segment : Segment} {segments : List Segment} {tree child node : Tree} {step : Step} {address : Address}
      (hselects : segment.Selects tree step) (hchild : tree.under? step = some child)
      (hbelow : Reaches segments child address node) : Reaches (segment :: segments) tree (step :: address) node
  | item {name : HashedName} {segments : List Segment} {items : List Tree} {index : Nat} {item node : Tree}
      {address : Address} (hitem : items[index]? = some item)
      (hbelow : Reaches (.property name false :: segments) item address node) :
      Reaches (.property name false :: segments) (.array items) (.position index :: address) node

/-- The objects that a filter behind the segments is asked about: those that the segments lead to, and those among the
items of the arrays that they lead to. -/
def Tree.Offers (segments : List Segment) (tree : Tree) (address : Address) (entries : Entries Tree) : Prop :=
  tree.Reaches segments address (.object entries) ∨
    ∃ holder items index, address = holder ++ [.position index] ∧ tree.Reaches segments holder (.array items) ∧
      items[index]? = some (.object entries)

variable {segment : Segment} {segments : List Segment} {tree child node : Tree} {step : Step} {address : Address}
  {items : List Tree} {entries : Entries Tree} {name : String} {store s : Store} {a : Bool}

theorem Tree.Reaches.isNull (hreaches : tree.Reaches segments address node) (hnode : node.isNull = false) :
    tree.isNull = false := by
  cases hreaches with
  | here => exact hnode
  | child _ hchild _ =>
      have hscalar := isScalar_of_under? hchild
      cases tree <;> first | rfl | cases hscalar
  | item => rfl

theorem Tree.Offers.isNull (hoffers : tree.Offers segments address entries) : tree.isNull = false := by
  rcases hoffers with hreaches | ⟨_, _, _, -, hreaches, -⟩
  · exact hreaches.isNull rfl
  · exact hreaches.isNull rfl

theorem Tree.offers_nil (hoffers : tree.Offers [] address entries) :
    (tree = .object entries ∧ address = []) ∨
      ∃ items index, tree = .array items ∧ address = [.position index] ∧ items[index]? = some (.object entries) := by
  rcases hoffers with hreaches | ⟨holder, items, index, rfl, hreaches, hitem⟩
  · cases hreaches
    exact .inl ⟨rfl, rfl⟩
  · cases hreaches
    exact .inr ⟨items, index, rfl, rfl, hitem⟩

/-- A step further: into a child that the segment selects, or into an item if it is a property of an array. -/
theorem Tree.offers_cons (hoffers : tree.Offers (segment :: segments) address entries) :
    ∃ step rest child, address = step :: rest ∧ tree.under? step = some child ∧
      ((segment.Selects tree step ∧ child.Offers segments rest entries) ∨
        ((∃ name items, segment = .property name false ∧ tree = .array items) ∧
          child.Offers (segment :: segments) rest entries)) := by
  rcases hoffers with hreaches | ⟨holder, items, index, rfl, hreaches, hitem⟩
  · cases hreaches with
    | child hselects hchild hbelow => exact ⟨_, _, _, rfl, hchild, .inl ⟨hselects, .inl hbelow⟩⟩
    | item hitem hbelow => exact ⟨.position _, _, _, rfl, hitem, .inr ⟨⟨_, _, rfl, rfl⟩, .inl hbelow⟩⟩
  · cases hreaches with
    | child hselects hchild hbelow =>
        exact ⟨_, _, _, rfl, hchild, .inl ⟨hselects, .inr ⟨_, _, _, rfl, hbelow, hitem⟩⟩⟩
    | item hitem' hbelow =>
        exact ⟨.position _, _, _, rfl, hitem', .inr ⟨⟨_, _, rfl, rfl⟩, .inr ⟨_, _, _, rfl, hbelow, hitem⟩⟩⟩

/-! ### Edits that reach every element once -/

section Lists

variable {α : Type} {edit : Edit α} {x : α} {xs ys : List α} {index position : Nat} {positions : List Nat}

theorem Change.andThen_eq_ok {first : Change α} {next : Edit α} {y : α}
    (hchange : first.andThen next = ⟨y, s, .ok a⟩) :
    ∃ x t b c, first = ⟨x, t, .ok b⟩ ∧ next x t = ⟨y, s, .ok c⟩ := by
  obtain ⟨x, t, changed⟩ := first
  cases changed with
  | error fault => cases hchange
  | ok b =>
      rcases hnext : next x t with ⟨y', s', changed⟩
      simp only [andThen, hnext, orChanged] at hchange
      cases changed with
      | error fault => cases hchange
      | ok c =>
          cases hchange
          exact ⟨x, t, b, c, rfl, hnext⟩

namespace Edit

/-- The edit succeeds on the first value, from some store, and leaves the second. -/
def Gives (edit : Edit α) (x y : α) : Prop := ∃ store s a, edit x store = ⟨y, s, .ok a⟩

theorem gives_each (heach : each edit xs store = ⟨ys, s, .ok a⟩) (hx : xs[index]? = some x) :
    ∃ y, edit.Gives x y ∧ ys[index]? = some y := by
  induction xs generalizing index store s a ys with
  | nil => simp at hx
  | cons first xs ih =>
      obtain ⟨y, t, b, zs, c, hy, hzs, rfl, -⟩ := Change.cons_eq_ok heach
      cases index with
      | zero =>
          obtain rfl : first = x := by simpa using hx
          exact ⟨y, ⟨store, t, b, hy⟩, rfl⟩
      | succ index =>
          obtain ⟨z, hgives, hz⟩ := ih hzs (by simpa using hx)
          exact ⟨z, hgives, by simpa using hz⟩

theorem gives_each_value {edit : Edit Tree} {entries' : Entries Tree}
    (heach : each edit.value entries store = ⟨entries', s, .ok a⟩) (hfind : Entries.find? entries name = some child) :
    ∃ new, edit.Gives child new ∧ Entries.find? entries' name = some new := by
  induction entries generalizing store s a entries' with
  | nil => cases hfind
  | cons entry entries ih =>
      obtain ⟨key, old⟩ := entry
      obtain ⟨_, t, b, rest, c, hentry, hrest, rfl, -⟩ := Change.cons_eq_ok heach
      obtain ⟨new, hnew, rfl⟩ := Change.map_eq_ok hentry
      rw [Entries.find?_cons] at hfind ⊢
      split at hfind
      · next hkey =>
          obtain rfl := Option.some.inj hfind
          exact ⟨new, ⟨store, t, b, hnew⟩, if_pos hkey⟩
      · next hkey =>
          obtain ⟨found, hgives, hfound⟩ := ih hrest hfind
          exact ⟨found, hgives, (if_neg hkey).trans hfound⟩

theorem atPosition_of_getElem?_eq_none (hx : xs[position]? = none) :
    atPosition edit position xs store = ⟨xs, store, .ok false⟩ := by
  induction xs generalizing position with
  | nil => cases position <;> rfl
  | cons first xs ih =>
      cases position with
      | zero => simp at hx
      | succ position =>
          rw [atPosition, ih (by simpa using hx)]
          rfl

/-- At one position the element changes, elsewhere it does not. -/
theorem gives_atPosition (hedit : atPosition edit position xs store = ⟨ys, s, .ok a⟩) (hx : xs[index]? = some x) :
    if index = position then ∃ y, edit.Gives x y ∧ ys[index]? = some y else ys[index]? = some x := by
  cases hold : xs[position]? with
  | none =>
      rw [atPosition_of_getElem?_eq_none hold] at hedit
      cases hedit
      rw [if_neg]
      · exact hx
      · rintro rfl
        rw [hold] at hx
        cases hx
  | some old =>
      rw [atPosition_eq_set edit store hold] at hedit
      obtain ⟨y, hy, rfl⟩ := Change.map_eq_ok hedit
      split
      · next hindex =>
          subst hindex
          obtain rfl : x = old := Option.some.inj (hx.symm.trans hold)
          obtain ⟨hlt, -⟩ := List.getElem?_eq_some_iff.mp hx
          exact ⟨y, ⟨store, s, a, hy⟩, List.getElem?_set_self hlt⟩
      · next hindex => exact (List.getElem?_set_ne (Ne.symm hindex)).trans hx

theorem gives_atPositions (hnodup : positions.Nodup)
    (hedit : sequence (positions.map (atPosition edit)) xs store = ⟨ys, s, .ok a⟩) (hx : xs[index]? = some x) :
    if index ∈ positions then ∃ y, edit.Gives x y ∧ ys[index]? = some y else ys[index]? = some x := by
  induction positions generalizing store xs s a x with
  | nil =>
      cases hedit
      exact hx
  | cons position positions ih =>
      obtain ⟨hnew, hothers⟩ := List.nodup_cons.mp hnodup
      obtain ⟨zs, t, b, c, hzs, hys⟩ := Change.andThen_eq_ok hedit
      have hfirst := gives_atPosition hzs hx
      by_cases hindex : index = position
      · subst hindex
        rw [if_pos rfl] at hfirst
        obtain ⟨y, hgives, hy⟩ := hfirst
        have hrest := ih hothers hys hy
        rw [if_neg hnew] at hrest
        rw [if_pos List.mem_cons_self]
        exact ⟨y, hgives, hrest⟩
      · rw [if_neg hindex] at hfirst
        have hrest := ih hothers hys hfirst
        simpa only [List.mem_cons, hindex, false_or] using hrest

end Edit

end Lists

/-! ### Positions -/

section Positions

variable {start : Nat} {positions : List Nat}

theorem Walk.matchingPositions_congr {test test' : Tree → Except Fault Bool}
    (htest : ∀ item ∈ items, test item = test' item) :
    matchingPositions test start items = matchingPositions test' start items := by
  induction items generalizing start with
  | nil => rfl
  | cons item items ih =>
      obtain ⟨hitem, hitems⟩ := List.forall_mem_cons.mp htest
      rw [matchingPositions, matchingPositions, hitem, ih hitems]

/-- Exactly the positions of the items that pass are chosen, each once. -/
theorem Walk.matchingPositions_spec {test : Tree → Except Fault Bool}
    (hmatching : matchingPositions test start items = .ok positions) :
    positions.Nodup ∧ (∀ position ∈ positions, start ≤ position) ∧
      ∀ index item, items[index]? = some item → test item = .ok (decide (start + index ∈ positions)) := by
  induction items generalizing start positions with
  | nil =>
      cases hmatching
      exact ⟨List.nodup_nil, List.forall_mem_nil _, fun _ _ hitem => by simp at hitem⟩
  | cons first items ih =>
      rw [matchingPositions] at hmatching
      cases hfound : test first with
      | error fault => rw [hfound] at hmatching; cases hmatching
      | ok found =>
          cases hothers : matchingPositions test (start + 1) items with
          | error fault => rw [hfound, hothers] at hmatching; cases hmatching
          | ok others =>
              rw [hfound, hothers] at hmatching
              obtain ⟨hnodup, hle, htest⟩ := ih hothers
              have hnew : start ∉ others := fun hmem => Nat.not_succ_le_self start (hle start hmem)
              have hrest : ∀ index item, items[index]? = some item →
                  test item = .ok (decide (start + (index + 1) ∈ others)) := fun index item hitem => by
                rw [htest index item hitem, Nat.add_assoc, Nat.add_comm 1 index]
              cases found with
              | true =>
                  cases hmatching
                  refine ⟨List.nodup_cons.mpr ⟨hnew, hnodup⟩, ?_, ?_⟩
                  · exact List.forall_mem_cons.mpr ⟨Nat.le_refl _, fun position hmem => Nat.le_of_succ_le (hle _ hmem)⟩
                  · rintro (_ | index) item hitem
                    · obtain rfl : first = item := by simpa using hitem
                      simpa using hfound
                    · rw [hrest index item (by simpa using hitem)]
                      simp
              | false =>
                  cases hmatching
                  refine ⟨hnodup, fun position hmem => Nat.le_of_succ_le (hle _ hmem), ?_⟩
                  rintro (_ | index) item hitem
                  · obtain rfl : first = item := by simpa using hitem
                    simpa [hnew] using hfound
                  · exact hrest index item (by simpa using hitem)

end Positions

/-! ### A step of the walk -/

section Walks

variable {walk : Walk} {following : Option Segment} {edit : Edit Tree} {result : Tree}

theorem Walk.gives_enter {container : Option Tree} {new : Tree} (hgives : Edit.Gives (enter container edit) child new)
    (hchild : child.isNull = false) : edit.Gives child new := by
  obtain ⟨t, u, b, hnew⟩ := hgives
  rw [enter, hchild, if_neg Bool.false_ne_true] at hnew
  exact ⟨t, u, b, hnew⟩

theorem Walk.gives_atProperty {container : Option Tree}
    (hedit : atProperty container name edit (.object entries) store = ⟨result, s, .ok a⟩)
    (hfind : Entries.find? entries name = some child) (hchild : child.isNull = false) :
    ∃ new, edit.Gives child new ∧ result.under? (.key name) = some new := by
  have hcontains : Entries.contains entries name = true := by rw [Entries.contains, hfind]; rfl
  simp only [atProperty, hcontains, if_true, Edit.atKey_eq_insert _ store hfind] at hedit
  obtain ⟨entries', hentries', rfl⟩ := Change.map_eq_ok hedit
  obtain ⟨new, hnew, rfl⟩ := Change.map_eq_ok hentries'
  exact ⟨new, gives_enter ⟨store, s, a, hnew⟩ hchild, Entries.find?_insert_self name new entries⟩

theorem Walk.gives_atIndex {container : Option Tree} {number : Int} {index : Nat}
    (hedit : atIndex container number edit (.array items) store = ⟨result, s, .ok a⟩)
    (hresolve : resolveIndex items.length number = some index) (hitem : items[index]? = some child)
    (hchild : child.isNull = false) : ∃ new, edit.Gives child new ∧ result.under? (.position index) = some new := by
  simp only [atIndex, hresolve, Edit.atPosition_eq_set _ store hitem] at hedit
  obtain ⟨items', hitems', rfl⟩ := Change.map_eq_ok hedit
  obtain ⟨new, hnew, rfl⟩ := Change.map_eq_ok hitems'
  exact ⟨new, gives_enter ⟨store, s, a, hnew⟩ hchild, List.getElem?_set_self (lt_of_resolveIndex hresolve)⟩

/-- The walk goes on in every child that the segment selects. -/
theorem Walk.gives_step (hshallow : segment.isShallow = true)
    (hedit : walk.step following edit segment tree store = ⟨result, s, .ok a⟩) (hselects : segment.Selects tree step)
    (hunder : tree.under? step = some child) (hchild : child.isNull = false) :
    ∃ new, edit.Gives child new ∧ result.under? step = some new := by
  cases segment with
  | property name deep =>
      cases deep with
      | true => cases hshallow
      | false =>
          cases tree with
          | object entries =>
              cases step with
              | key key =>
                  obtain rfl : key = name := hselects
                  exact gives_atProperty hedit hunder hchild
              | position index => cases hselects
          | _ => cases step <;> cases hselects
  | index number =>
      cases tree with
      | array items =>
          cases step with
          | key name => cases hselects
          | position index =>
              exact gives_atIndex hedit hselects hunder hchild
      | object entries =>
          cases step with
          | key name =>
              obtain rfl : name = toString number := hselects
              exact gives_atProperty hedit hunder hchild
          | position index => cases hselects
      | _ => cases step <;> cases hselects
  | wildcard deep objectsOnly =>
      cases deep with
      | true => cases hshallow
      | false =>
          cases tree with
          | array items =>
              cases step with
              | key name => cases hunder
              | position index =>
                  obtain ⟨items', hitems', rfl⟩ := Change.map_eq_ok hedit
                  exact Edit.gives_each hitems' hunder
          | object entries =>
              cases step with
              | key name =>
                  obtain ⟨entries', hentries', rfl⟩ := Change.map_eq_ok hedit
                  exact Edit.gives_each_value hentries' hunder
              | position index => cases hunder
          | _ => cases step <;> cases hunder
  | slice start last stride =>
      cases tree with
      | array items =>
          cases step with
          | key name => cases hselects
          | position index =>
              obtain ⟨items', hitems', rfl⟩ := Change.map_eq_ok hedit
              have hnodup := nodup_slicePositions (of_decide_eq_true hshallow) items.length start last
              have hmem : index ∈ (slicePositions items.length start last stride).getD [] := hselects
              have hgives := Edit.gives_atPositions hnodup hitems' hunder
              rw [if_pos hmem] at hgives
              obtain ⟨new, hnew, hresult⟩ := hgives
              exact ⟨new, gives_enter hnew hchild, hresult⟩
      | _ => cases step <;> cases hselects
  | _ => cases hshallow

/-- What the edit writes into the objects that are offered to a filter, and what it leaves alone. -/
def Edit.Decides (edit : Edit Tree) (segments : List Segment) (test : Tree → Except Fault Bool) (name : String)
    (value : Tree) : Prop :=
  ∀ tree : Tree, tree.recordFree = true → ∀ ⦃result⦄, edit.Gives tree result →
    ∀ ⦃address entries⦄, tree.Offers segments address entries →
      ∃ passes, test (.object entries) = .ok passes ∧
        result.at? address = some (.object (if passes then Entries.insert name value entries else entries))

variable {test : Tree → Except Fault Bool} {value : Tree}

theorem Edit.Decides.cons (hdecides : edit.Decides segments test name value) (hshallow : segment.isShallow = true) :
    (walk.step following edit segment).Decides (segment :: segments) test name value := by
  intro tree hrecordFree result hgives address entries hoffers
  -- The address takes a step each time, also where the segment stays the same within arrays.
  induction address generalizing tree result with
  | nil =>
      obtain ⟨_, _, _, ⟨⟩, -⟩ := offers_cons hoffers
  | cons step address ih =>
      obtain ⟨_, _, child, heq, hunder, hbelow⟩ := offers_cons hoffers
      obtain ⟨rfl, rfl⟩ := List.cons.inj heq
      have hchild := recordFree_of_under? hrecordFree hunder
      rcases hbelow with ⟨hselects, hbelow⟩ | ⟨⟨key, items, rfl, rfl⟩, hbelow⟩
      · obtain ⟨t, u, b, hedit⟩ := hgives
        obtain ⟨new, hnew, hresult⟩ := Walk.gives_step hshallow hedit hselects hunder hbelow.isNull
        rw [at?_cons hresult]
        exact hdecides child hchild hnew hbelow
      · obtain ⟨t, u, b, hedit⟩ := hgives
        rw [Walk.step, throughArrays, throughItems_eq] at hedit
        obtain ⟨items', hitems', rfl⟩ := Change.map_eq_ok hedit
        cases step with
        | key name => cases hunder
        | position index =>
            obtain ⟨new, hnew, hresult⟩ := Edit.gives_each hitems' hunder
            have hchanged : (Tree.array items').under? (.position index) = some new := hresult
            rw [at?_cons hchanged]
            exact ih child hchild (by rwa [Walk.step]) hbelow

/-- At the filter all objects are tested before the first is written. -/
theorem Walk.decides_atMatches {condition : Filter} (name : String) (value : Tree)
    (htest : ∀ item store, item.recordFree = true → walk.accepts condition item store = test item) :
    (walk.atMatches condition (Edit.setLast value (.property name false))).Decides [] test name value := by
  intro tree hrecordFree result hgives address entries hoffers
  obtain ⟨t, u, b, hedit⟩ := hgives
  rcases offers_nil hoffers with ⟨rfl, rfl⟩ | ⟨items, index, rfl, rfl, hitem⟩
  · simp only [atMatches, htest _ t hrecordFree] at hedit
    cases hpasses : test (.object entries) with
    | error fault => rw [hpasses] at hedit; cases hedit
    | ok passes =>
        rw [hpasses] at hedit
        cases passes <;> cases hedit <;> exact ⟨_, rfl, rfl⟩
  · have hfree := (everywhere_array.mp hrecordFree).2
    have hitems : matchingPositions (walk.accepts condition · t) 0 items = matchingPositions test 0 items :=
      matchingPositions_congr fun item hmem => htest item t (hfree item hmem)
    simp only [atMatches, hitems] at hedit
    cases hmatching : matchingPositions test 0 items with
    | error fault => rw [hmatching] at hedit; cases hedit
    | ok positions =>
        rw [hmatching] at hedit
        obtain ⟨items', hitems', rfl⟩ := Change.map_eq_ok hedit
        obtain ⟨hnodup, -, htested⟩ := matchingPositions_spec hmatching
        have hgives := Edit.gives_atPositions hnodup hitems' hitem
        have hpasses := htested index _ hitem
        rw [Nat.zero_add] at hpasses
        refine ⟨_, hpasses, ?_⟩
        rw [at?, under?]
        by_cases hmem : index ∈ positions
        · rw [if_pos hmem] at hgives
          obtain ⟨new, ⟨_, _, _, hnew⟩, hresult⟩ := hgives
          cases hnew
          simp [hmem, hresult, at?]
        · rw [if_neg hmem] at hgives
          simp [hmem, hgives, at?]

theorem Walk.decides_visit {condition : Filter} {before : List Segment}
    (hshallow : ∀ segment ∈ before, segment.isShallow = true) (name : String) (value : Tree)
    (htest : ∀ item store, item.recordFree = true → walk.accepts condition item store = test item) :
    (walk.visit (some (.property name false)) (Edit.setLast value (.property name false))
      (before ++ [.filter condition])).Decides before test name value := by
  induction before with
  | nil => exact decides_atMatches name value htest
  | cons segment before ih =>
      obtain ⟨hsegment, hbefore⟩ := List.forall_mem_cons.mp hshallow
      exact (ih hbefore).cons hsegment

/-- Without records the document is its own snapshot. A filter that refers to nothing does not look at it. -/
theorem Path.accepts_walk {path : Path} {condition : Filter} (hnoted : condition.refers = true → path.refers = true)
    {root : Tree} (hroot : root.recordFree = true) (building : Building) {item : Tree} (hitem : item.recordFree = true)
    (store : Store) :
    (path.walk root building).accepts condition item store = condition.holds root path.dropNulls item := by
  rw [Walk.accepts, Store.snapshot, Store.snapshot, showRecords_of_recordFree _ hitem, walk]
  cases hrefers : path.refers with
  | true => rw [if_pos rfl, showRecords_of_recordFree _ hroot]
  | false =>
      have hcondition : condition.refers = false := by
        cases hcondition : condition.refers with
        | true => rw [hnoted hcondition] at hrefers; cases hrefers
        | false => rfl
      exact Filter.holds_of_refers_eq_false hcondition item

/-- **Filters decide before anything is written.** An assignment behind a filter either fails or does the following.
Take any object that the segments before the filter lead to in the document, or that is an item of an array there. Tested
on the document as it was, it passes the filter or not. If it does, then it gets the value under the name, and else it
stays as it is, whatever the filter refers to and whatever else is written. The document is kept for that only by a path
that has its references noted, as compiled paths have. -/
theorem Path.set_filtered {path : Path} {before : List Segment} {condition : Filter} {name : String}
    (hsegments : path.segments = before ++ [.filter condition, .property name false])
    (hnotes : path.NotesReferences) (hshallow : ∀ segment ∈ before, segment.isShallow = true) {root : Tree}
    (hrecordFree : root.recordFree = true) (value : Tree) (store : Store) {a : Bool}
    (hchanged : (path.set value root store).changed = .ok a) :
    ∀ address entries, root.Offers before address entries →
      ∃ passes, condition.holds root path.dropNulls (.object entries) = .ok passes ∧
        (path.set value root store).result.at? address =
          some (.object (if passes then Entries.insert name value entries else entries)) := by
  intro address entries hoffers
  have hsegments' : path.segments = (before ++ [.filter condition]) ++ [.property name false] := by
    rw [hsegments, List.append_assoc]
    rfl
  have hnoted : condition.refers = true → path.refers = true := fun hrefers =>
    hnotes (List.any_eq_true.mpr ⟨.filter condition, by simp [hsegments], hrefers⟩)
  rw [set_eq hsegments' hoffers.isNull] at hchanged ⊢
  have htest : ∀ item store, item.recordFree = true →
      (path.walk root .containers).accepts condition item store = condition.holds root path.dropNulls item :=
    fun item store hitem => accepts_walk hnoted hrecordFree .containers hitem store
  exact Walk.decides_visit hshallow name value htest root hrecordFree ⟨store, _, a, by rw [← hchanged]⟩ hoffers

/-- The first object that is written is the one that the filter compares all of them with, and it stands in another
array than the others. -/
theorem Path.set_filtered_groups :
    let reference := Path.mk "$.groups[0][0].n"
      [.property "groups" false, .index 0, .index 0, .property "n" false] false true
    let condition := Filter.group .and (.present .size) (.reference (.property "n") .eq reference)
    let path := Path.mk "$.groups[*][?(size() && @.n == $.groups[0][0].n)].n"
      [.property "groups" false, .wildcard false false, .filter condition, .property "n" false] true true
    let one := Tree.object [("n", .integer 1)]
    let two := Tree.object [("n", .integer 2)]
    let root := Tree.object [("groups", .array [.array [one], .array [two, one]])]
    let after := (path.set (.integer 7) root Store.empty).result
    root.recordFree = true ∧ (path.set (.integer 7) root Store.empty).changed = .ok true ∧
      after.at? [.key "groups", .position 1, .position 0] = some two ∧
      after.at? [.key "groups", .position 1, .position 1] = some (.object [("n", .integer 7)]) := by
  intro reference condition path one two root after
  have hshallow : ∀ segment ∈ [Segment.property "groups" false, .wildcard false false], segment.isShallow = true := by
    simp [Segment.isShallow]
  have hsegments : path.segments =
      [.property "groups" false, .wildcard false false] ++ [.filter condition, .property "n" false] := rfl
  have hrecordFree : root.recordFree = true := rfl
  have hchanged : (path.set (.integer 7) root Store.empty).changed = .ok true := by rfl
  have hset := set_filtered hsegments (fun _ => rfl) hshallow hrecordFree (.integer 7) Store.empty hchanged
  have hoffers : ∀ index entries, [two, one][index]? = some (.object entries) →
      root.Offers [.property "groups" false, .wildcard false false]
        [.key "groups", .position 1, .position index] entries := by
    intro index entries hitem
    have hgroups : root.under? (.key "groups") = some (.array [.array [one], .array [two, one]]) := rfl
    have hgroup : (Tree.array [.array [one], .array [two, one]]).under? (.position 1) = some (.array [two, one]) := rfl
    exact .inr ⟨[.key "groups", .position 1], [two, one], index, rfl,
      .child rfl hgroups (.child trivial hgroup (.here _)), hitem⟩
  obtain ⟨passes, htwo, hfirst⟩ := hset _ _ (hoffers 0 _ rfl)
  obtain ⟨passes', hone, hsecond⟩ := hset _ _ (hoffers 1 _ rfl)
  cases htwo
  cases hone
  exact ⟨hrecordFree, hchanged, hfirst, hsecond⟩

end Walks

end TreeQuery
