import TreeQuery.Proofs.Edit.Framing
import TreeQuery.Proofs.Tree.Reordering

/-!
# Assignments that commute

Two paths that part at different properties lead to places that have nothing below them in common. What is above both
places is built in the same way by whichever assignment comes first, so that the order of the two does not matter but
for the order of keys.
-/

namespace TreeQuery

open TreeQuery.Tree

/-! ### Edits in either order -/

section Lists

variable {α β : Type} {related : α → α → Prop} {first second edit : Edit α} {x : α} {xs : List α} {store : Store}

theorem Change.map_eq_ok {f : α → β} {change : Change α} {result : β} {a : Bool}
    (hchange : change.map f = ⟨result, store, .ok a⟩) :
    ∃ found, change = ⟨found, store, .ok a⟩ ∧ f found = result := by
  obtain ⟨found, s, changed⟩ := change
  cases hchange
  exact ⟨found, rfl, rfl⟩

theorem Change.cons_eq_ok {head : Change α} {rest results : List α} {tail : Store → Change (List α)} {a : Bool}
    (hcons : head.cons rest tail = ⟨results, store, .ok a⟩) :
    ∃ y s b ys c, head = ⟨y, s, .ok b⟩ ∧ tail s = ⟨ys, store, .ok c⟩ ∧ results = y :: ys ∧ a = (b || c) := by
  obtain ⟨y, s, changed⟩ := head
  cases changed with
  | error fault => cases hcons
  | ok b =>
      rcases htail : tail s with ⟨ys, t, changed⟩
      simp only [cons, htail, map, orChanged] at hcons
      cases changed with
      | error fault => cases hcons
      | ok c =>
          cases hcons
          exact ⟨y, s, b, ys, c, rfl, htail, rfl, rfl⟩

namespace Edit

/-- If the edits succeed one after the other, then so they do in the other order: each reports the same, and the
results are related. -/
def CommuteAt (related : α → α → Prop) (first second : Edit α) (x : α) : Prop :=
  ∀ ⦃store s left both a b⦄, first x store = ⟨left, store, .ok a⟩ → second left store = ⟨both, s, .ok b⟩ →
    s = store ∧ ∃ right both', second x store = ⟨right, store, .ok b⟩ ∧ first right store = ⟨both', store, .ok a⟩ ∧
      related both both'

theorem store_each (hedit : ∀ x ∈ xs, ∀ store, (edit x store).store = store) (store : Store) :
    (each edit xs store).store = store := by
  induction xs generalizing store with
  | nil => rfl
  | cons x xs ih =>
      obtain ⟨hx, hxs⟩ := List.forall_mem_cons.mp hedit
      have hhead := hx store
      rw [each, Change.cons]
      cases (edit x store).changed with
      | error fault => exact hhead
      | ok a =>
          dsimp only
          rw [hhead]
          exact ih hxs store

theorem CommuteAt.each (hstore : ∀ x ∈ xs, ∀ store, (first x store).store = store)
    (hcommute : ∀ x ∈ xs, CommuteAt related first second x) :
    CommuteAt (Pointwise related) (each first) (each second) xs := by
  induction xs with
  | nil =>
      intro store s left both a b hleft hboth
      cases hleft
      cases hboth
      exact ⟨rfl, [], [], rfl, rfl, .nil⟩
  | cons x xs ih =>
      obtain ⟨hx, hxs⟩ := List.forall_mem_cons.mp hstore
      obtain ⟨hcommuteX, hcommuteXs⟩ := List.forall_mem_cons.mp hcommute
      intro store s left both a b hleft hboth
      obtain ⟨y, t, a₁, ys, a₂, hy, hys, rfl, rfl⟩ := Change.cons_eq_ok hleft
      -- The rounds of the second edit start from the store that those of the first started from.
      have ht : t = store := by
        have hkept := hx store
        rwa [hy] at hkept
      subst ht
      obtain ⟨z, u, b₁, zs, b₂, hz, hzs, rfl, rfl⟩ := Change.cons_eq_ok hboth
      obtain ⟨rfl, y', z', hy', hz', hrelated⟩ := hcommuteX hy hz
      obtain ⟨hs, ys', zs', hys', hzs', hpointwise⟩ := ih hxs hcommuteXs hys hzs
      refine ⟨hs, y' :: ys', z' :: zs', ?_, ?_, .cons hrelated hpointwise⟩
      · rw [Edit.each, hy', Change.cons_eq hys']
      · rw [Edit.each, hz', Change.cons_eq hzs']

end Edit

end Lists

namespace Edit

/-- On trees without records the edits succeed in both orders if they do in this one, up to the order of keys. -/
def Commute (first second : Edit Tree) : Prop :=
  ∀ tree : Tree, tree.recordFree = true → CommuteAt Reordered first second tree

/-- On trees without records the edit leaves the store alone. -/
def LeavesStore (edit : Edit Tree) : Prop :=
  ∀ (tree : Tree) (store : Store), tree.recordFree = true → (edit tree store).store = store

/-- On trees without records the edit neither makes a null nor replaces one. -/
def KeepsNull (edit : Edit Tree) : Prop :=
  ∀ (tree : Tree) (store : Store), tree.recordFree = true → (edit tree store).result.isNull = tree.isNull

variable {first second edit inner inner' : Edit Tree} {name other : String} {built : Tree} {entries : Entries Tree}

theorem Commute.outcomes (hcommute : first.Commute second) (hstore : first.LeavesStore) {tree : Tree}
    (hrecordFree : tree.recordFree = true) {store : Store} {a b : Bool}
    (hleft : (first tree store).changed = .ok a)
    (hboth : (second (first tree store).result (first tree store).store).changed = .ok b) :
    (second tree store).changed = .ok b ∧
      (first (second tree store).result (second tree store).store).changed = .ok a ∧
      (second (first tree store).result (first tree store).store).result.Reordered
        (first (second tree store).result (second tree store).store).result ∧
      (second (first tree store).result (first tree store).store).store = store ∧
      (first (second tree store).result (second tree store).store).store = store := by
  have hkept := hstore tree store hrecordFree
  rcases hfirst : first tree store with ⟨left, s, changed⟩
  rw [hfirst] at hleft hboth hkept
  obtain rfl : changed = .ok a := hleft
  obtain rfl : s = store := hkept
  rcases hsecond : second left s with ⟨both, s', changed'⟩
  rw [hsecond] at hboth
  obtain rfl : changed' = .ok b := hboth
  obtain ⟨rfl, right, both', hright, hboth', hreordered⟩ := hcommute tree hrecordFree hfirst hsecond
  rw [hright]
  dsimp only
  rw [hboth']
  exact ⟨rfl, rfl, hreordered, rfl, rfl⟩

/-! ### Edits of one entry -/

/-- In an object the edit puts a new value under a name, made from the old one. What is missing counts as null. -/
def Inserts (edit : Edit Tree) (name : String) (inner : Edit Tree) : Prop :=
  ∀ entries store, edit (.object entries) store =
    (inner ((Entries.find? entries name).getD .null) store).map fun child => .object (Entries.insert name child entries)

theorem shape_of_recordFree {tree : Tree} (hrecordFree : tree.recordFree = true) :
    tree.isScalar = true ∨ (∃ items, tree = .array items) ∨ ∃ entries, tree = .object entries := by
  cases tree with
  | array items => exact .inr (.inl ⟨items, rfl⟩)
  | object entries => exact .inr (.inr ⟨entries, rfl⟩)
  | record handle entries => cases hrecordFree
  | _ => exact .inl rfl

theorem recordFree_getD_find? (hentries : (Tree.object entries).recordFree = true) (name : String) :
    ((Entries.find? entries name).getD .null).recordFree = true :=
  Entries.everywhere_getD_find? rfl (everywhere_object.mp hentries).2 name

/-- Different entries do not depend on each other. -/
theorem Inserts.commuteAt_of_ne (hfirst : first.Inserts name inner) (hsecond : second.Inserts other inner')
    (hne : name ≠ other) (hinner : inner'.LeavesStore) (hentries : (Tree.object entries).recordFree = true) :
    CommuteAt Reordered first second (.object entries) := by
  intro store s left both a b hleft hboth
  rw [hfirst] at hleft
  obtain ⟨child, hchild, rfl⟩ := Change.map_eq_ok hleft
  rw [hsecond, Entries.find?_insert_of_ne (Ne.symm hne)] at hboth
  obtain ⟨child', hchild', rfl⟩ := Change.map_eq_ok hboth
  have hs : s = store := by
    have hkept := hinner _ store (recordFree_getD_find? hentries other)
    rwa [hchild'] at hkept
  subst hs
  refine ⟨rfl, .object (Entries.insert other child' entries), _, ?_, ?_,
    .perm (Entries.perm_insert_insert hne child child' entries)⟩
  · rw [hsecond, hchild']
    rfl
  · rw [hfirst, Entries.find?_insert_of_ne hne, hchild]
    rfl

/-- In the same entry the edits commute if they do in the value. -/
theorem Inserts.commuteAt (hfirst : first.Inserts name inner) (hsecond : second.Inserts name inner')
    (hcommute : inner.Commute inner') (hentries : (Tree.object entries).recordFree = true) :
    CommuteAt Reordered first second (.object entries) := by
  intro store s left both a b hleft hboth
  rw [hfirst] at hleft
  obtain ⟨child, hchild, rfl⟩ := Change.map_eq_ok hleft
  rw [hsecond, Entries.find?_insert_self, Option.getD_some] at hboth
  obtain ⟨grown, hgrown, rfl⟩ := Change.map_eq_ok hboth
  obtain ⟨hs, child', grown', hchild', hgrown', hreordered⟩ :=
    hcommute _ (recordFree_getD_find? hentries name) hchild hgrown
  rw [Entries.insert_insert]
  refine ⟨hs, .object (Entries.insert name child' entries), .object (Entries.insert name grown' entries), ?_, ?_,
    hreordered.insert name entries⟩
  · rw [hsecond, hchild']
    rfl
  · rw [hfirst, Entries.find?_insert_self, Option.getD_some, hgrown', Change.map, Entries.insert_insert]

/-! ### Edits through arrays -/

/-- The edit of one entry, carried through arrays to the objects in them. Scalars stay what they are. -/
structure GoesThrough (edit : Edit Tree) (name : String) (inner : Edit Tree) : Prop where
  array : ∀ items store, edit (.array items) store = (each edit items store).map .array
  object : edit.Inserts name inner
  scalar : ∀ tree : Tree, tree.isScalar = true → ∃ changed, ∀ store, edit tree store = ⟨tree, store, changed⟩

theorem throughItems_eq (edit : Edit Tree) (items : List Tree) (store : Store) :
    throughItems edit items store = each (throughArrays edit) items store := by
  induction items generalizing store with
  | nil => rfl
  | cons item items ih =>
      have htail : (fun store => throughItems edit items store) = each (throughArrays edit) items := funext ih
      rw [throughItems, htail, each]

theorem goesThrough_throughArrays (hobject : edit.Inserts name inner)
    (hscalar : ∀ tree : Tree, tree.isScalar = true → ∃ changed, ∀ store, edit tree store = ⟨tree, store, changed⟩) :
    GoesThrough (throughArrays edit) name inner where
  array items store := by rw [throughArrays, throughItems_eq]
  object := hobject
  scalar tree htree := by
    have hthrough : throughArrays edit tree = edit tree := by
      cases tree <;> first | rfl | cases htree
    rw [hthrough]
    exact hscalar tree htree

theorem GoesThrough.leavesStore (hedit : edit.GoesThrough name inner) (hinner : inner.LeavesStore) :
    edit.LeavesStore := by
  intro tree
  induction tree using Tree.induction with
  | scalar tree hscalar =>
      intro store _
      obtain ⟨changed, hchanged⟩ := hedit.scalar tree hscalar
      rw [hchanged]
  | array items ih =>
      intro store hrecordFree
      have hitems := (everywhere_array.mp hrecordFree).2
      rw [hedit.array]
      exact store_each (fun item hmem store => ih item hmem store (hitems item hmem)) store
  | object entries _ =>
      intro store hrecordFree
      rw [hedit.object]
      exact hinner _ store (recordFree_getD_find? hrecordFree name)
  | record handle entries _ => exact fun _ hrecordFree => by cases hrecordFree

theorem GoesThrough.keepsNull (hedit : edit.GoesThrough name inner) : edit.KeepsNull := by
  intro tree store hrecordFree
  rcases shape_of_recordFree hrecordFree with hscalar | ⟨items, rfl⟩ | ⟨entries, rfl⟩
  · obtain ⟨changed, hchanged⟩ := hedit.scalar tree hscalar
    rw [hchanged]
  · rw [hedit.array]
    rfl
  · rw [hedit.object]
    rfl

/-- Edits that go through arrays commute if they do in the objects there. -/
theorem GoesThrough.commute (hfirst : first.GoesThrough name inner) (hsecond : second.GoesThrough other inner')
    (hstore : first.LeavesStore)
    (hobject : ∀ entries, (Tree.object entries).recordFree = true →
      CommuteAt Reordered first second (.object entries)) :
    first.Commute second := by
  intro tree
  induction tree using Tree.induction with
  | scalar tree hscalar =>
      intro _ store s left both a b hleft hboth
      obtain ⟨changed, hchanged⟩ := hfirst.scalar tree hscalar
      obtain ⟨changed', hchanged'⟩ := hsecond.scalar tree hscalar
      rw [hchanged] at hleft
      cases hleft
      rw [hchanged'] at hboth
      cases hboth
      exact ⟨rfl, tree, tree, hchanged' store, hchanged store, .refl tree⟩
  | array items ih =>
      intro hrecordFree store s left both a b hleft hboth
      have hitems := (everywhere_array.mp hrecordFree).2
      have hkept : ∀ item ∈ items, ∀ store, (first item store).store = store :=
        fun item hmem store => hstore item store (hitems item hmem)
      have hcommute := CommuteAt.each hkept fun item hmem => ih item hmem (hitems item hmem)
      rw [hfirst.array] at hleft
      obtain ⟨lefts, hlefts, rfl⟩ := Change.map_eq_ok hleft
      rw [hsecond.array] at hboth
      obtain ⟨boths, hboths, rfl⟩ := Change.map_eq_ok hboth
      obtain ⟨hs, rights, boths', hrights, hboths', hpointwise⟩ := hcommute hlefts hboths
      refine ⟨hs, .array rights, .array boths', ?_, ?_, .of_pointwise hpointwise⟩
      · rw [hsecond.array, hrights]
        rfl
      · rw [hfirst.array, hboths']
        rfl
  | object entries _ => exact hobject entries
  | record handle entries _ => exact fun hrecordFree => by cases hrecordFree

/-! ### Building containers on the way -/

theorem enter_eq {container : Option Tree} (edit : Edit Tree) {tree : Tree} (hnull : tree.isNull = false)
    (store : Store) : Walk.enter container edit tree store = edit tree store := by
  rw [Walk.enter, hnull, if_neg Bool.false_ne_true]

theorem exists_enter_eq (hnull : built.isNull = false) (hbuilt : built.recordFree = true) {tree : Tree}
    (hrecordFree : tree.recordFree = true) :
    ∃ node : Tree, node.isNull = false ∧ node.recordFree = true ∧
      ∀ edit store, Walk.enter (some built) edit tree store = edit node store := by
  cases htree : tree.isNull with
  | true => exact ⟨built, hnull, hbuilt, fun edit store => by rw [Walk.enter, htree, if_pos rfl, Option.getD_some]⟩
  | false => exact ⟨tree, htree, hrecordFree, fun edit store => enter_eq edit htree store⟩

theorem LeavesStore.enter (hedit : edit.LeavesStore) (hnull : built.isNull = false)
    (hbuilt : built.recordFree = true) : LeavesStore (Walk.enter (some built) edit) := by
  intro tree store hrecordFree
  obtain ⟨node, -, hnode, henter⟩ := exists_enter_eq hnull hbuilt hrecordFree
  rw [henter]
  exact hedit node store hnode

/-- Whichever edit comes first builds the container, and the other finds it. -/
theorem Commute.enter (hcommute : first.Commute second) (hfirst : first.KeepsNull) (hsecond : second.KeepsNull)
    (hnull : built.isNull = false) (hbuilt : built.recordFree = true) :
    Commute (Walk.enter (some built) first) (Walk.enter (some built) second) := by
  intro tree hrecordFree store s left both a b hleft hboth
  obtain ⟨node, hnode, hfree, henter⟩ := exists_enter_eq hnull hbuilt hrecordFree
  rw [henter] at hleft
  have hleftNull : left.isNull = false := by
    have hkept := hfirst node store hfree
    rwa [hleft, hnode] at hkept
  rw [enter_eq second hleftNull] at hboth
  obtain ⟨hs, right, both', hright, hboth', hreordered⟩ := hcommute node hfree hleft hboth
  have hrightNull : right.isNull = false := by
    have hkept := hsecond node store hfree
    rwa [hright, hnode] at hkept
  refine ⟨hs, right, both', ?_, ?_, hreordered⟩
  · rw [henter, hright]
  · rw [enter_eq first hrightNull, hboth']

/-! ### Indices -/

theorem inserts_atIndex (built : Tree) (index : Int) (edit : Edit Tree) :
    Inserts (Walk.atIndex (some built) index edit) (toString index) (Walk.enter (some built) edit) :=
  fun entries store => Walk.atProperty_object built (toString index) edit entries store

theorem atIndex_of_isScalar {tree : Tree} (hscalar : tree.isScalar = true) (built : Tree) (index : Int)
    (edit : Edit Tree) (store : Store) :
    Walk.atIndex (some built) index edit tree store = ⟨tree, store, .ok false⟩ := by
  cases tree <;> first | rfl | cases hscalar

theorem recordFree_getElem? {items : List Tree} (hitems : (Tree.array items).recordFree = true) (position : Nat) :
    ((items[position]?).getD .null).recordFree = true := by
  cases hitem : items[position]? with
  | none => rfl
  | some item => exact (everywhere_array.mp hitems).2 item (List.mem_of_getElem? hitem)

theorem LeavesStore.atIndex (hinner : LeavesStore (Walk.enter (some built) edit)) (index : Int) :
    LeavesStore (Walk.atIndex (some built) index edit) := by
  intro tree store hrecordFree
  rcases shape_of_recordFree hrecordFree with hscalar | ⟨items, rfl⟩ | ⟨entries, rfl⟩
  · rw [atIndex_of_isScalar hscalar]
  · rcases Walk.atIndex_cases built index items with ⟨changed, -, hrefused⟩ | ⟨padded, -, -, heq⟩
    · rw [hrefused]
    · rw [heq]
      exact hinner _ store (recordFree_getElem? hrecordFree _)
  · rw [inserts_atIndex]
    exact hinner _ store (recordFree_getD_find? hrecordFree _)

theorem keepsNull_atIndex (built : Tree) (index : Int) (edit : Edit Tree) :
    KeepsNull (Walk.atIndex (some built) index edit) := by
  intro tree store hrecordFree
  rcases shape_of_recordFree hrecordFree with hscalar | ⟨items, rfl⟩ | ⟨entries, rfl⟩
  · rw [atIndex_of_isScalar hscalar]
  · rcases Walk.atIndex_cases built index items with ⟨changed, -, hrefused⟩ | ⟨padded, -, -, heq⟩
    · rw [hrefused]
    · rw [heq]
      rfl
  · rw [inserts_atIndex]
    rfl

/-- In an array that is long enough for an index, a walk finds what was put there. -/
theorem atIndex_set {index : Int} {items padded : List Tree} {position : Nat}
    (hpad : padTo items position = .ok padded) (hresolve : resolveIndex padded.length index = some position)
    (built child : Tree) (edit : Edit Tree) (store : Store) :
    Walk.atIndex (some built) index edit (.array (padded.set position child)) store =
      (Walk.enter (some built) edit child store).map fun grown => .array (padded.set position grown) := by
  have hresolve' : resolveIndex (padded.set position child).length index = some position := by
    rwa [List.length_set]
  rw [Walk.atIndex_of_resolveIndex hresolve' (List.getElem?_set_self (lt_length_of_padTo hpad))]
  simp only [List.set_set]

/-- Where an index is refused, it is refused to both edits. Otherwise whichever comes first makes the array long
enough, and the other finds it so. -/
theorem commuteAt_atIndex (hcommute : Commute (Walk.enter (some built) first) (Walk.enter (some built) second))
    (index : Int) {items : List Tree} (hitems : (Tree.array items).recordFree = true) :
    CommuteAt Reordered (Walk.atIndex (some built) index first) (Walk.atIndex (some built) index second)
      (.array items) := by
  intro store s left both a b hleft hboth
  rcases Walk.atIndex_cases built index items with ⟨changed, -, hrefused⟩ | ⟨padded, hpad, hresolve, heq⟩
  · rw [hrefused] at hleft
    cases hleft
    rw [hrefused] at hboth
    cases hboth
    exact ⟨rfl, .array items, .array items, hrefused _ _, hrefused _ _, .refl _⟩
  · generalize arrayPosition items.length index = position at hpad hresolve heq
    rw [heq] at hleft
    obtain ⟨child, hchild, rfl⟩ := Change.map_eq_ok hleft
    rw [atIndex_set hpad hresolve] at hboth
    obtain ⟨grown, hgrown, rfl⟩ := Change.map_eq_ok hboth
    obtain ⟨hs, child', grown', hchild', hgrown', hreordered⟩ :=
      hcommute _ (recordFree_getElem? hitems _) hchild hgrown
    refine ⟨hs, .array (padded.set position child'), .array (padded.set position grown'), ?_, ?_,
      .of_pointwise (.set Reordered.refl hreordered _ _)⟩
    · rw [heq, hchild']
      rfl
    · rw [atIndex_set hpad hresolve, hgrown']
      rfl

theorem Commute.atIndex (hcommute : Commute (Walk.enter (some built) first) (Walk.enter (some built) second))
    (index : Int) : Commute (Walk.atIndex (some built) index first) (Walk.atIndex (some built) index second) := by
  intro tree hrecordFree
  rcases shape_of_recordFree hrecordFree with hscalar | ⟨items, rfl⟩ | ⟨entries, rfl⟩
  · intro store s left both a b hleft hboth
    rw [atIndex_of_isScalar hscalar] at hleft
    cases hleft
    rw [atIndex_of_isScalar hscalar] at hboth
    cases hboth
    exact ⟨rfl, tree, tree, atIndex_of_isScalar hscalar _ _ _ _, atIndex_of_isScalar hscalar _ _ _ _, .refl tree⟩
  · exact commuteAt_atIndex hcommute index hrecordFree
  · exact (inserts_atIndex built index first).commuteAt (inserts_atIndex built index second) hcommute hrecordFree

end Edit

/-! ### Assignments along paths -/

section Walks

variable {walk walk' : Walk} {value value' : Tree} {segment next : Segment} {segments : List Segment}
  {name other : String}

/-- Puts a value at the end of the segments. -/
def Walk.assign (walk : Walk) (value : Tree) : List Segment → Edit Tree
  | [] => Edit.replace value
  | [last] => Edit.setLast value last
  | segment :: next :: segments => walk.step (some next) (walk.assign value (next :: segments)) segment

theorem Walk.visit_eq_assign (walk : Walk) (value : Tree) (last : Segment) (init : List Segment) :
    walk.visit (some last) (Edit.setLast value last) init = walk.assign value (init ++ [last]) := by
  refine visit_induction (motive := fun segments edit => edit = walk.assign value segments) rfl ?_ init
  intro segment next below edit hedit
  rw [hedit, assign]

theorem Walk.assign_cons {segment next : Segment} {segments : List Segment} (walk : Walk) (value : Tree)
    (hhead : segments.head? = some next) :
    walk.assign value (segment :: segments) = walk.step (some next) (walk.assign value segments) segment := by
  cases segments with
  | nil => cases hhead
  | cons first segments =>
      obtain rfl := Option.some.inj hhead
      rfl

theorem Segment.isNull_container (segment : Segment) : segment.container.isNull = false := by
  cases segment <;> rfl

theorem Edit.goesThrough_setProperty (name : String) (value : Tree) :
    GoesThrough (setProperty name value) name (replace value) :=
  goesThrough_throughArrays (fun _ _ => rfl) fun tree hscalar => by
    cases tree with
    | array items => cases hscalar
    | object entries => cases hscalar
    | record handle entries => cases hscalar
    | _ => exact ⟨_, fun _ => rfl⟩

theorem Walk.goesThrough_step (hbuilding : walk.building = .containers) (hnext : next.isPlain = true)
    (edit : Edit Tree) (name : HashedName) :
    Edit.GoesThrough (walk.step (some next) edit (.property name false)) name
      (enter (some next.container) edit) := by
  rw [step, container?_eq hbuilding hnext]
  refine Edit.goesThrough_throughArrays (atProperty_object _ name edit) fun tree hscalar => ⟨.ok false, fun store => ?_⟩
  cases tree <;> first | rfl | cases hscalar

/-- A property at the front of a path is an edit of one entry, carried through arrays. -/
theorem Walk.exists_goesThrough (hbuilding : walk.building = .containers)
    (hplain : ∀ segment ∈ segments, segment.isPlain = true) (value : Tree) (name : HashedName) :
    ∃ inner, Edit.GoesThrough (walk.assign value (.property name false :: segments)) name inner ∧
      ((walk.assign value segments).LeavesStore → inner.LeavesStore) := by
  cases segments with
  | nil => exact ⟨_, Edit.goesThrough_setProperty name value, id⟩
  | cons next segments =>
      exact ⟨_, goesThrough_step hbuilding (hplain next List.mem_cons_self) _ name,
        fun hstore => hstore.enter next.isNull_container next.recordFree_container⟩

theorem Edit.setIndex_keeps (index : Int) (value : Tree) :
    LeavesStore (setIndex index value) ∧ KeepsNull (setIndex index value) := by
  have hkeeps : ∀ (tree : Tree) (store : Store), tree.recordFree = true →
      (setIndex index value tree store).store = store ∧
        (setIndex index value tree store).result.isNull = tree.isNull := by
    intro tree store hrecordFree
    rcases shape_of_recordFree hrecordFree with hscalar | ⟨items, rfl⟩ | ⟨entries, rfl⟩
    · cases tree <;> first | exact ⟨rfl, rfl⟩ | cases hscalar
    · simp only [setIndex]
      split <;> split <;> exact ⟨rfl, rfl⟩
    · exact ⟨rfl, rfl⟩
  exact ⟨fun tree store hrecordFree => (hkeeps tree store hrecordFree).1,
    fun tree store hrecordFree => (hkeeps tree store hrecordFree).2⟩

theorem Walk.assign_keeps (hbuilding : walk.building = .containers)
    (hplain : ∀ segment ∈ segments, segment.isPlain = true) (value : Tree) :
    (walk.assign value segments).LeavesStore ∧ (segments ≠ [] → (walk.assign value segments).KeepsNull) := by
  induction segments with
  | nil => exact ⟨fun _ _ _ => rfl, fun hne => absurd rfl hne⟩
  | cons segment segments ih =>
      obtain ⟨hsegment, hsegments⟩ := List.forall_mem_cons.mp hplain
      obtain ⟨hstore, -⟩ := ih hsegments
      rcases Segment.exists_of_isPlain hsegment with ⟨name, rfl⟩ | ⟨index, rfl⟩
      · obtain ⟨inner, hthrough, hinner⟩ := exists_goesThrough hbuilding hsegments value name
        exact ⟨hthrough.leavesStore (hinner hstore), fun _ => hthrough.keepsNull⟩
      · cases segments with
        | nil =>
            obtain ⟨hkeeps, hnull⟩ := Edit.setIndex_keeps index value
            exact ⟨hkeeps, fun _ => hnull⟩
        | cons next segments =>
            have hnext := hsegments next List.mem_cons_self
            rw [assign, step, container?_eq hbuilding hnext]
            exact ⟨(hstore.enter next.isNull_container next.recordFree_container).atIndex index,
              fun _ => Edit.keepsNull_atIndex _ index _⟩

/-- Along plain segments walks differ in what they build alone. -/
theorem Walk.step_congr {following : Option Segment} (hplain : segment.isPlain = true)
    (hcontainer : walk.container? following = walk'.container? following) (edit : Edit Tree) :
    walk.step following edit segment = walk'.step following edit segment := by
  rcases Segment.exists_of_isPlain hplain with ⟨name, rfl⟩ | ⟨index, rfl⟩ <;> simp only [step, hcontainer]

theorem Walk.assign_congr (hplain : ∀ segment ∈ segments, segment.isPlain = true)
    (hbuilding : walk.building = walk'.building) (value : Tree) :
    walk.assign value segments = walk'.assign value segments := by
  induction segments with
  | nil => rfl
  | cons segment segments ih =>
      obtain ⟨hsegment, hsegments⟩ := List.forall_mem_cons.mp hplain
      cases segments with
      | nil => rfl
      | cons next segments =>
          have hcontainer : walk.container? (some next) = walk'.container? (some next) := by
            simp only [container?, hbuilding]
          rw [assign, assign, ih hsegments, step_congr hsegment hcontainer]

/-- One step on the common way: what is behind it commutes, and it builds the same for both. -/
theorem Edit.Commute.step {first second : Edit Tree} (hcommute : first.Commute second) (hfirst : first.LeavesStore)
    (hkeeps : first.KeepsNull) (hkeeps' : second.KeepsNull) (hbuilding : walk.building = .containers)
    (hbuilding' : walk'.building = .containers) (hsegment : segment.isPlain = true)
    {next next' : Segment} (hnext : next.isPlain = true) (hnext' : next'.isPlain = true)
    (hcontainer : next.container = next'.container) :
    Commute (walk.step (some next) first segment) (walk'.step (some next') second segment) := by
  have henter : Commute (Walk.enter (some next.container) first) (Walk.enter (some next.container) second) :=
    hcommute.enter hkeeps hkeeps' next.isNull_container next.recordFree_container
  rcases Segment.exists_of_isPlain hsegment with ⟨name, rfl⟩ | ⟨index, rfl⟩
  · have hthrough := Walk.goesThrough_step hbuilding hnext first name
    have hthrough' := Walk.goesThrough_step hbuilding' hnext' second name
    rw [← hcontainer] at hthrough'
    have hstore := hfirst.enter next.isNull_container next.recordFree_container
    exact hthrough.commute hthrough' (hthrough.leavesStore hstore) fun entries hentries =>
      hthrough.object.commuteAt hthrough'.object henter hentries
  · rw [Walk.step, Walk.step, Walk.container?_eq hbuilding hnext, Walk.container?_eq hbuilding' hnext', ← hcontainer]
    exact henter.atIndex index

/-- Assignments along segments that part at two properties commute. -/
theorem Walk.commute_assign {shared below below' : List Segment} (hbuilding : walk.building = .containers)
    (hbuilding' : walk'.building = .containers) (hshared : ∀ segment ∈ shared, segment.isPlain = true)
    (hbelow : ∀ segment ∈ below, segment.isPlain = true) (hbelow' : ∀ segment ∈ below', segment.isPlain = true)
    (hne : name ≠ other) :
    Edit.Commute (walk.assign value (shared ++ .property name false :: below))
      (walk'.assign value' (shared ++ .property other false :: below')) := by
  induction shared with
  | nil =>
      obtain ⟨inner, hthrough, hinner⟩ := exists_goesThrough hbuilding hbelow value name
      obtain ⟨inner', hthrough', hinner'⟩ := exists_goesThrough hbuilding' hbelow' value' other
      have hstore := hinner (assign_keeps hbuilding hbelow value).1
      have hstore' := hinner' (assign_keeps hbuilding' hbelow' value').1
      exact hthrough.commute hthrough' (hthrough.leavesStore hstore) fun entries hentries =>
        hthrough.object.commuteAt_of_ne hthrough'.object hne hstore' hentries
  | cons segment shared ih =>
      obtain ⟨hsegment, hshared⟩ := List.forall_mem_cons.mp hshared
      have hplain : ∀ segment ∈ shared ++ .property name false :: below, segment.isPlain = true :=
        List.forall_mem_append.mpr ⟨hshared, List.forall_mem_cons.mpr ⟨rfl, hbelow⟩⟩
      have hplain' : ∀ segment ∈ shared ++ .property other false :: below', segment.isPlain = true :=
        List.forall_mem_append.mpr ⟨hshared, List.forall_mem_cons.mpr ⟨rfl, hbelow'⟩⟩
      obtain ⟨hstore, hkeeps⟩ := assign_keeps hbuilding hplain value
      obtain ⟨-, hkeeps'⟩ := assign_keeps hbuilding' hplain' value'
      have hcommute := ih hshared
      -- Both walks look one segment ahead for what to build, and see the same kind of segment.
      obtain ⟨next, next', hhead, hhead', hcontainer⟩ : ∃ next next' : Segment,
          (shared ++ .property name false :: below).head? = some next ∧
            (shared ++ .property other false :: below').head? = some next' ∧ next.container = next'.container := by
        cases shared with
        | nil => exact ⟨_, _, rfl, rfl, rfl⟩
        | cons next shared => exact ⟨next, next, rfl, rfl, rfl⟩
      rw [List.cons_append, List.cons_append, assign_cons walk value hhead, assign_cons walk' value' hhead']
      exact hcommute.step hstore (hkeeps (by simp)) (hkeeps' (by simp)) hbuilding hbuilding' hsegment
        (hplain next (List.mem_of_head? hhead)) (hplain' next' (List.mem_of_head? hhead')) hcontainer

end Walks

section Whole

variable {p q : Path} {root value : Tree} {store : Store}

theorem Path.set_eq_assign (hnonempty : p.segments ≠ []) (hplain : ∀ segment ∈ p.segments, segment.isPlain = true)
    (hnull : root.isNull = false) (store : Store) :
    p.set value root store = Walk.assign ⟨.null, p.dropNulls, .containers⟩ value p.segments root store := by
  obtain ⟨init, last, hsegments⟩ := exists_segments hnonempty
  have hassign : (p.walk root .containers).assign value p.segments =
      Walk.assign ⟨.null, p.dropNulls, .containers⟩ value p.segments := Walk.assign_congr hplain (by rfl) value
  rw [set_eq hsegments hnull, Walk.visit_eq_assign, ← hsegments, hassign]

theorem Path.set_of_isNull (hnull : root.isNull = true) (store : Store) :
    p.set value root store = ⟨root, store, .ok false⟩ := by
  rw [set, editLast, if_pos hnull, Edit.skip]

/-- **Independent assignments commute.** Two plain paths may share a beginning, map over arrays and build what is
missing: where they go on with different properties, if both assignments succeed one after the other, then so they do
in the other order. Each reports the same as before, and the trees differ at most in the order of keys. -/
theorem Path.set_comm {shared below below' : List Segment} {name other : String}
    (hp : p.segments = shared ++ .property name false :: below)
    (hq : q.segments = shared ++ .property other false :: below') (hne : name ≠ other)
    (hshared : ∀ segment ∈ shared, segment.isPlain = true) (hbelow : ∀ segment ∈ below, segment.isPlain = true)
    (hbelow' : ∀ segment ∈ below', segment.isPlain = true) (hrecordFree : root.recordFree = true) (v w : Tree)
    (store : Store) {a b : Bool} (hleft : (p.set v root store).changed = .ok a)
    (hboth : (q.set w (p.set v root store).result (p.set v root store).store).changed = .ok b) :
    let both := q.set w (p.set v root store).result (p.set v root store).store
    let right := q.set w root store
    let both' := p.set v right.result right.store
    right.changed = .ok b ∧ both'.changed = .ok a ∧ both.result.Reordered both'.result ∧ both.store = store ∧
      both'.store = store := by
  cases hnull : root.isNull with
  | true =>
      have hskip (path : Path) (value : Tree) : path.set value root store = ⟨root, store, .ok false⟩ :=
        set_of_isNull hnull store
      simp only [hskip] at hleft hboth ⊢
      exact ⟨hboth, hleft, .refl root, trivial, trivial⟩
  | false =>
      have hplain : ∀ segment ∈ p.segments, segment.isPlain = true := by
        rw [hp]
        exact List.forall_mem_append.mpr ⟨hshared, List.forall_mem_cons.mpr ⟨rfl, hbelow⟩⟩
      have hplain' : ∀ segment ∈ q.segments, segment.isPlain = true := by
        rw [hq]
        exact List.forall_mem_append.mpr ⟨hshared, List.forall_mem_cons.mpr ⟨rfl, hbelow'⟩⟩
      have hnonempty : p.segments ≠ [] := by simp [hp]
      have hnonempty' : q.segments ≠ [] := by simp [hq]
      let walk : Walk := ⟨.null, p.dropNulls, .containers⟩
      let walk' : Walk := ⟨.null, q.dropNulls, .containers⟩
      have hbuilding : walk.building = .containers := rfl
      have hbuilding' : walk'.building = .containers := rfl
      obtain ⟨hstore, hkeeps⟩ := Walk.assign_keeps hbuilding hplain v
      obtain ⟨-, hkeeps'⟩ := Walk.assign_keeps hbuilding' hplain' w
      have hcommute : Edit.Commute (walk.assign v p.segments) (walk'.assign w q.segments) := by
        rw [hp, hq]
        exact Walk.commute_assign hbuilding hbuilding' hshared hbelow hbelow' hne
      have hset {tree : Tree} (htree : tree.isNull = false) (store : Store) :
          p.set v tree store = walk.assign v p.segments tree store := set_eq_assign hnonempty hplain htree store
      have hset' {tree : Tree} (htree : tree.isNull = false) (store : Store) :
          q.set w tree store = walk'.assign w q.segments tree store := set_eq_assign hnonempty' hplain' htree store
      have hleftNull := (hkeeps hnonempty root store hrecordFree).trans hnull
      have hrightNull := (hkeeps' hnonempty' root store hrecordFree).trans hnull
      rw [hset hnull] at hleft hboth
      rw [hset' hleftNull] at hboth
      dsimp only
      rw [hset hnull, hset' hnull, hset' hleftNull, hset hrightNull]
      exact hcommute.outcomes hstore hrecordFree hleft hboth

/-- Both paths map over the objects of a list, one of which has neither property yet. -/
theorem Path.set_comm_listed :
    let p := Path.mk "$.list.a[1]" [.property "list" false, .property "a" false, .index 1] false true
    let q := Path.mk "$.list.b" [.property "list" false, .property "b" false] false true
    let root := Tree.object [("list", .array [.object [("b", .null)], .object []])]
    let padded := Tree.array [.null, .integer 7]
    let inFront := Tree.object [("b", .integer 8), ("a", padded)]
    let behind := Tree.object [("a", padded), ("b", .integer 8)]
    let left := p.set (.integer 7) root Store.empty
    let both := q.set (.integer 8) left.result left.store
    let right := q.set (.integer 8) root Store.empty
    let both' := p.set (.integer 7) right.result right.store
    root.recordFree = true ∧ left.changed = .ok true ∧ both.changed = .ok true ∧ right.changed = .ok true ∧
      both'.changed = .ok true ∧ both.result = .object [("list", .array [inFront, behind])] ∧
      both'.result = .object [("list", .array [inFront, inFront])] ∧ both.result.Reordered both'.result := by
  intro p q root padded inFront behind left both right both'
  have hshared : ∀ segment ∈ [Segment.property "list" false], segment.isPlain = true := by simp [Segment.isPlain]
  have hbelow : ∀ segment ∈ [Segment.index 1], segment.isPlain = true := by simp [Segment.isPlain]
  have hp : p.segments = [.property "list" false] ++ .property "a" false :: [.index 1] := rfl
  have hq : q.segments = [.property "list" false] ++ .property "b" false :: [] := rfl
  have hleft : left.changed = .ok true := rfl
  have hboth : both.changed = .ok true := rfl
  obtain ⟨hright, hboth', hreordered, -, -⟩ :=
    set_comm hp hq (by decide) hshared hbelow (List.forall_mem_nil _) rfl _ _ _ hleft hboth
  exact ⟨rfl, hleft, hboth, hright, hboth', rfl, rfl, hreordered⟩

end Whole

end TreeQuery
