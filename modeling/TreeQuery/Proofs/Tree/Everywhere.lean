import TreeQuery.Query.Select

/-!
# Conditions on every node of a tree

What callers promise of documents is mostly a condition on single nodes that has to hold at every depth:
that there are no records, or that no object repeats a key.
-/

namespace TreeQuery.Tree

/-- Induction over a tree: a container is settled once everything in it is. -/
theorem induction {motive : Tree → Prop} (scalar : ∀ tree, tree.isScalar = true → motive tree)
    (array : ∀ items, (∀ item ∈ items, motive item) → motive (array items))
    (object : ∀ entries, (∀ entry ∈ entries, motive entry.2) → motive (object entries))
    (record : ∀ handle entries, (∀ entry ∈ entries, motive entry.2) → motive (record handle entries))
    (tree : Tree) : motive tree :=
  @Tree.rec motive (fun items => ∀ item ∈ items, motive item) (fun entries => ∀ entry ∈ entries, motive entry.2)
    (fun entry => motive entry.2) (scalar null rfl) (fun _ => scalar _ rfl) (fun _ => scalar _ rfl)
    (fun _ => scalar _ rfl) (fun _ => scalar _ rfl) (fun _ => scalar _ rfl) array object record (List.forall_mem_nil _)
    (fun _ _ hitem hitems => List.forall_mem_cons.mpr ⟨hitem, hitems⟩) (List.forall_mem_nil _)
    (fun _ _ hentry hentries => List.forall_mem_cons.mpr ⟨hentry, hentries⟩) (fun _ _ hvalue => hvalue) tree

theorem eq_null_of_isNull {tree : Tree} (hnull : tree.isNull = true) : tree = null := by
  cases tree <;> first | rfl | cases hnull

mutual

/-- Whether a test holds of a tree and of everything below it. -/
def everywhere (test : Tree → Bool) : Tree → Bool
  | array items => test (array items) && everywhereInItems test items
  | object entries => test (object entries) && everywhereInEntries test entries
  | record handle entries => test (record handle entries) && everywhereInEntries test entries
  | tree => test tree

def everywhereInItems (test : Tree → Bool) : List Tree → Bool
  | [] => true
  | item :: items => everywhere test item && everywhereInItems test items

def everywhereInEntries (test : Tree → Bool) : List (String × Tree) → Bool
  | [] => true
  | (_, value) :: entries => everywhere test value && everywhereInEntries test entries

end

def isRecord : Tree → Bool
  | record .. => true
  | _ => false

def ownEntries : Tree → Entries Tree
  | object entries => entries
  | record _ entries => entries
  | _ => []

/-- The tree holds no handles to records. -/
def recordFree (tree : Tree) : Bool := tree.everywhere (!·.isRecord)

def ownKeysDistinct (tree : Tree) : Bool := decide tree.ownEntries.keys.Nodup

/-- No object in the tree repeats a key. -/
def keysDistinct (tree : Tree) : Bool := tree.everywhere ownKeysDistinct

variable {test : Tree → Bool}

theorem everywhereInItems_iff {items : List Tree} :
    everywhereInItems test items = true ↔ ∀ item ∈ items, everywhere test item = true := by
  induction items with
  | nil => simp [everywhereInItems]
  | cons item items ih => simp [everywhereInItems, ih]

theorem everywhereInEntries_iff {entries : Entries Tree} :
    everywhereInEntries test entries = true ↔ ∀ entry ∈ entries, everywhere test entry.2 = true := by
  induction entries with
  | nil => simp [everywhereInEntries]
  | cons entry entries ih => simp [everywhereInEntries, ih]

theorem everywhere_array {items : List Tree} :
    everywhere test (array items) = true ↔
      test (array items) = true ∧ ∀ item ∈ items, everywhere test item = true := by
  rw [everywhere, Bool.and_eq_true, everywhereInItems_iff]

theorem everywhere_object {entries : Entries Tree} :
    everywhere test (object entries) = true ↔
      test (object entries) = true ∧ ∀ entry ∈ entries, everywhere test entry.2 = true := by
  rw [everywhere, Bool.and_eq_true, everywhereInEntries_iff]

theorem keysDistinct_array {items : List Tree} :
    keysDistinct (array items) = true ↔ ∀ item ∈ items, keysDistinct item = true := by
  rw [keysDistinct, everywhere_array]
  exact and_iff_right (decide_eq_true List.nodup_nil)

theorem keysDistinct_object {entries : Entries Tree} :
    keysDistinct (object entries) = true ↔
      entries.keys.Nodup ∧ ∀ entry ∈ entries, keysDistinct entry.2 = true := by
  rw [keysDistinct, everywhere_object, ownKeysDistinct, decide_eq_true_eq]
  rfl

end TreeQuery.Tree

namespace TreeQuery.Entries

variable {α : Type}

theorem find?_cons (key name : String) (value : α) (entries : Entries α) :
    find? ((key, value) :: entries) name = if key = name then some value else find? entries name := by
  rw [find?, List.lookup_cons]
  split
  · next heq => rw [if_pos (beq_iff_eq.mp heq).symm]
  · next hne => rw [if_neg (Ne.symm (beq_eq_false_iff_ne.mp hne)), find?]

theorem mem_of_find? {entries : Entries α} {name : String} {value : α} (hfind : entries.find? name = some value) :
    (name, value) ∈ entries := by
  obtain ⟨before, after, rfl, -⟩ := List.lookup_eq_some_iff.mp hfind
  simp

/-- What is missing counts as null. -/
theorem everywhere_getD_find? {test : Tree → Bool} {entries : Entries Tree} (hnull : test .null = true)
    (hentries : ∀ entry ∈ entries, entry.2.everywhere test = true) (name : String) :
    ((find? entries name).getD .null).everywhere test = true := by
  cases hfind : find? entries name with
  | none => exact hnull
  | some child => exact hentries _ (mem_of_find? hfind)

theorem find?_map {β : Type} (f : α → β) (entries : Entries α) (name : String) :
    find? (entries.map fun entry => (entry.1, f entry.2)) name = (find? entries name).map f := by
  induction entries with
  | nil => rfl
  | cons entry entries ih =>
      obtain ⟨key, value⟩ := entry
      rw [List.map_cons, find?_cons, find?_cons, ih]
      split <;> rfl

theorem map_insert {β : Type} (f : α → β) (name : String) (value : α) (entries : Entries α) :
    (insert name value entries).map (fun entry => (entry.1, f entry.2)) =
      insert name (f value) (entries.map fun entry => (entry.1, f entry.2)) := by
  induction entries with
  | nil => rfl
  | cons entry entries ih =>
      obtain ⟨key, old⟩ := entry
      simp only [insert, List.map_cons]
      split
      · rfl
      · rw [List.map_cons, ih]

theorem find?_append_cons {before after : Entries α} {name : String} {value : α}
    (hnodup : (keys (before ++ (name, value) :: after)).Nodup) :
    find? (before ++ (name, value) :: after) name = some value := by
  refine List.lookup_eq_some_iff.mpr ⟨before, after, rfl, fun entry hmem => ?_⟩
  simp only [keys, List.map_append, List.map_cons] at hnodup
  have hne := (List.nodup_append.mp hnodup).2.2 entry.1 (List.mem_map_of_mem hmem) name (by simp)
  simpa using Ne.symm hne

theorem find?_of_mem {entries : Entries α} (hnodup : entries.keys.Nodup) {name : String} {value : α}
    (hmem : (name, value) ∈ entries) : find? entries name = some value := by
  obtain ⟨before, after, rfl⟩ := List.append_of_mem hmem
  exact find?_append_cons hnodup

theorem mem_insert {name : String} {value : α} {entries : Entries α} {entry : String × α}
    (hmem : entry ∈ insert name value entries) : entry = (name, value) ∨ entry ∈ entries := by
  induction entries with
  | nil => exact .inl (List.mem_singleton.mp hmem)
  | cons first entries ih =>
      obtain ⟨key, old⟩ := first
      rw [insert] at hmem
      split at hmem
      · next hkey =>
          rw [hkey] at hmem
          exact (List.mem_cons.mp hmem).imp_right (List.mem_cons_of_mem _)
      · rcases List.mem_cons.mp hmem with rfl | hothers
        · exact .inr (by simp)
        · exact (ih hothers).imp_right (List.mem_cons_of_mem _)

theorem insert_of_not_mem {name : String} {value : α} {entries : Entries α} (hnew : name ∉ entries.keys) :
    insert name value entries = entries ++ [(name, value)] := by
  induction entries with
  | nil => rfl
  | cons entry entries ih =>
      obtain ⟨key, old⟩ := entry
      simp only [keys, List.map_cons, List.mem_cons, not_or] at hnew
      rw [insert, if_neg (Ne.symm hnew.1), ih hnew.2]
      rfl

theorem mem_of_mem_ofList {members : List (String × α)} {entry : String × α} (hmem : entry ∈ ofList members) :
    entry ∈ members := by
  have hfold : ∀ (members before : List (String × α)),
      entry ∈ members.foldl (fun entries member => insert member.1 member.2 entries) before →
        entry ∈ before ∨ entry ∈ members := by
    intro members
    induction members with
    | nil => exact fun before hmem => .inl hmem
    | cons member members ih =>
        intro before hmem
        rcases ih _ hmem with hinserted | hothers
        · rcases mem_insert hinserted with rfl | hbefore
          · exact .inr List.mem_cons_self
          · exact .inl hbefore
        · exact .inr (List.mem_cons_of_mem _ hothers)
  exact (hfold members [] hmem).resolve_left List.not_mem_nil

/-- Members whose names differ are entries as they are. -/
theorem ofList_of_nodup {members : List (String × α)} (hnodup : (keys members).Nodup) :
    ofList members = members := by
  have hfold : ∀ (members before : List (String × α)), (keys (before ++ members)).Nodup →
      members.foldl (fun entries member => insert member.1 member.2 entries) before = before ++ members := by
    intro members
    induction members with
    | nil => simp
    | cons member members ih =>
        intro before hnodup
        obtain ⟨name, value⟩ := member
        have hnew : name ∉ keys before := by
          intro hmem
          simp only [keys, List.map_append, List.map_cons] at hnodup
          exact (List.nodup_append.mp hnodup).2.2 name hmem name (by simp) rfl
        rw [List.foldl_cons]
        dsimp only
        rw [insert_of_not_mem hnew, ih _ (by simpa using hnodup)]
        simp
  exact hfold members [] hnodup

end TreeQuery.Entries
