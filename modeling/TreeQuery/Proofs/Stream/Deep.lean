import TreeQuery.Proofs.Stream.Loops
import TreeQuery.Proofs.Tree.Slots

/-!
# Deep search

Seeking a field at any depth, and going on from each match, reads what the tree has under that name in
document order, without looking into the matches. Then the cursor stands behind the value that was searched.
-/

namespace TreeQuery

open Json Text

namespace Movement

/-- Reads every value of a field at any depth, each as it is. -/
def readDeep (name : String) : Nat → Movement (List Tree)
  | 0 => fail .unexpectedEnd
  | fuel + 1 => do
    match ← seekDeep name (hashName name) with
    | .nothing => return []
    | _ =>
      let value ← readValue
      return value :: (← readDeep name fuel)

/-- The values that are extracted are the items of those that are read. -/
theorem deepValues_eq_map (name : String) (fuel : Nat) :
    deepValues name fuel = (fun found => found.flatMap Tree.matchItems) <$> readDeep name fuel := by
  induction fuel with
  | zero => rfl
  | succ fuel ih =>
      rw [deepValues, readDeep, map_bind]
      refine bind_congr fun kind => ?_
      cases kind <;> simp only [map_pure, map_bind, bind_map_left, ih, List.flatMap_nil, List.flatMap_cons]

/-- The search for more values of a field, once the cursor has left the value before. -/
def deepFrom (name : String) (scope fuel steps : Nat) : Movement (List Tree) := do
  match ← seekBelow name (hashName name) scope steps with
  | .nothing => return []
  | _ =>
    let value ← readValue
    return value :: (← readDeep name fuel)

theorem run_readDeep_succ {name : String} {scope fuel length depth : Nat} {text : List Char} :
    (readDeep name (fuel + 1)).run ⟨length, text, depth, some scope⟩ =
      (deepFrom name scope fuel (text.length + 1)).run ⟨length, text, depth, some scope⟩ := rfl

end Movement

/-! ### What the slots stand for -/

namespace Json

variable {name : String} {tree : Tree}

/-- What the slots of a name in a written tree stand for. -/
def slotMeanings (name : String) (tree : Tree) : List Tree := (Tree.slotValues name tree).map meaning

theorem slotMeanings_array (items : List Tree) :
    slotMeanings name (.array items) = items.flatMap (slotMeanings name) := by
  rw [slotMeanings, Tree.slotValues_array, List.map_flatMap]
  rfl

theorem slotMeanings_object (members : List (String × Tree)) :
    slotMeanings name (.object members) =
      members.flatMap fun member => if member.1 = name then [meaning member.2] else slotMeanings name member.2 := by
  rw [slotMeanings, Tree.slotValues_object, List.map_flatMap]
  refine congrArg (List.flatMap · members) (funext fun member => ?_)
  split <;> rfl

theorem slotMeanings_of_isScalar {tree : Tree} (hscalar : tree.isScalar = true) : slotMeanings name tree = [] := by
  rw [slotMeanings, Tree.slotValues_of_isScalar hscalar, List.map_nil]

/-- Where a tree stands for something, its slots do so, too. -/
theorem isSome_resolve?_slot (haccepted : (resolve? tree).isSome = true) :
    ∀ value ∈ Tree.slotValues name tree, (resolve? value).isSome = true := by
  induction tree using Tree.induction with
  | scalar tree hscalar =>
      rw [Tree.slotValues_of_isScalar hscalar]
      exact List.forall_mem_nil _
  | array items ih =>
      rw [Tree.slotValues_array]
      intro value hmem
      obtain ⟨item, hitem, hmem⟩ := List.mem_flatMap.mp hmem
      exact ih item hitem (isSome_resolve?_item haccepted item hitem) value hmem
  | object members ih =>
      rw [Tree.slotValues_object]
      intro value hmem
      obtain ⟨member, hmember, hmem⟩ := List.mem_flatMap.mp hmem
      have hvalue := isSome_resolve?_member haccepted member hmember
      split at hmem
      · rwa [List.mem_singleton.mp hmem]
      · exact ih member hmember hvalue value hmem
  | record handle entries _ => exact List.forall_mem_nil _

/-- In a tree that stands for itself the slots do so, too. -/
theorem slotMeanings_eq_slotValues (hkeys : tree.keysDistinct = true)
    (hplain : tree.numberKeyFree = true) : slotMeanings name tree = Tree.slotValues name tree := by
  refine (List.map_congr_left fun value hmem => ?_).trans (List.map_id' _)
  exact meaning_eq_self (Tree.everywhere_slotValues hkeys value hmem) (Tree.everywhere_slotValues hplain value hmem)

end Json

/-! ### Searching -/

/-- From the text on, a deep search that began at the nesting `scope` reads `found` and stops at `after`. -/
def Finds (name : String) (scope : Nat) (after : List Char) (depth : Nat) (text : List Char) (found : List Tree) :
    Prop :=
  ∀ length fuel steps, (skipBlank text).length ≤ fuel → (skipBlank text).length < steps →
    (Movement.deepFrom name scope fuel steps).run ⟨length, skipBlank text, depth, some scope⟩ =
      .ok found ⟨length, skipBlank after, scope, none⟩

namespace Finds

variable {name : String} {scope depth depth' : Nat} {after text text' : List Char} {found : List Tree}

theorem last {c : Char} (hclose : IsClose c) : Finds name scope after (scope + 1) (c :: after) [] := by
  intro length fuel steps _ hsteps
  obtain ⟨steps, rfl⟩ := exists_eq_succ_of_lt hsteps
  rw [skipBlank_cons hclose.facts.1, Movement.deepFrom, Movement.seekBelow]
  rcases hclose with rfl | rfl
  · simp [Token.ofChar, Movement.run_advance_close (show closesContainer ']' = true by decide)]
  · simp [Token.ofChar, Movement.run_advance_close (show closesContainer '\x7d' = true by decide)]

theorem step (hlength : (skipBlank text').length < (skipBlank text).length)
    (hrun : ∀ length steps,
      (Movement.seekBelow name (hashName name) scope (steps + 1)).run ⟨length, skipBlank text, depth, some scope⟩ =
        (Movement.seekBelow name (hashName name) scope steps).run ⟨length, skipBlank text', depth', some scope⟩)
    (hfinds : Finds name scope after depth' text' found) : Finds name scope after depth text found := by
  intro length fuel steps hfuel hsteps
  obtain ⟨steps, rfl⟩ := exists_eq_succ_of_lt hsteps
  rw [← hfinds length fuel steps (by omega) (by omega)]
  simp only [Movement.deepFrom, EStateM.run_bind, hrun]

theorem close {c : Char} (hclose : IsClose c) (hdepth : scope + 1 < depth)
    (hfinds : Finds name scope after (depth - 1) text found) : Finds name scope after depth (c :: text) found := by
  have hskip : skipBlank (c :: text) = c :: text := skipBlank_cons hclose.facts.1 _
  refine step (length_skipBlank_lt hskip) (fun length steps => ?_) hfinds
  have hne : depth - 1 ≠ scope := by omega
  rw [hskip, Movement.seekBelow]
  rcases hclose with rfl | rfl
  · simp [Token.ofChar, Movement.run_advance_close (show closesContainer ']' = true by decide), hne]
  · simp [Token.ofChar, Movement.run_advance_close (show closesContainer '\x7d' = true by decide), hne]

theorem start {c : Char} (hopens : opensContainer c = true)
    (hfinds : Finds name scope after (depth + 1) text found) : Finds name scope after depth (c :: text) found := by
  have hc : c = '\x7b' ∨ c = '[' := by simpa [opensContainer] using hopens
  have hskip : skipBlank (c :: text) = c :: text := skipBlank_cons (by rcases hc with rfl | rfl <;> decide) _
  refine step (length_skipBlank_lt hskip) (fun length steps => ?_) hfinds
  rw [hskip, Movement.seekBelow]
  rcases hc with rfl | rfl <;> simp [Token.ofChar, Movement.run_advance_open hopens]

theorem loops : Loops (Finds name scope after depth) where
  blank hblank hfound := by
    intro length fuel steps hfuel hsteps
    rw [skipBlank_append hblank] at hfuel hsteps ⊢
    exact hfound length fuel steps hfuel hsteps
  comma {text _} hfound := by
    have hskip : skipBlank (',' :: text) = ',' :: text := skipBlank_cons (by decide) _
    refine step (length_skipBlank_lt hskip) (fun length steps => ?_) hfound
    rw [hskip, Movement.seekBelow]
    simp [Token.ofChar, Movement.run_advance_separator]

/-- A scalar is no match, as no colon follows it. -/
theorem scalar {value : List Char} {tree : Tree} (hscalar : ScalarText value tree) (hfollows : FollowsItem text)
    (hfinds : Finds name scope after depth text found) : Finds name scope after depth (value ++ text) found := by
  have hspells : Spells 0 value tree := hscalar
  have hopens := hspells.opens
  have hskip : skipBlank (value ++ text) = value ++ text := hopens.skipBlank_append text
  have hlength : (skipBlank text).length < (skipBlank (value ++ text)).length := by
    have := length_skipBlank_le text
    have := hopens.length_pos
    rw [hskip, List.length_append]
    omega
  refine step hlength (fun length steps => ?_) hfinds
  rw [hskip, Movement.seekBelow]
  rcases hscalar.quoted_or_word with ⟨content, quoted, hquoted, rfl⟩ | ⟨c, tail, hmem, rfl⟩
  · simp [Token.ofChar, Movement.run_readString hquoted, Movement.run_eat_colon_of_followsItem hfollows]
  · have hskipValue : Movement.skipValue.run ⟨length, c :: (tail ++ text), depth, some scope⟩ =
        .ok () ⟨length, skipBlank text, depth, some scope⟩ :=
      Movement.run_skipValue hspells hfollows.delimits
    rw [List.cons_append]
    simp only [wordTokens, List.mem_cons, List.not_mem_nil, or_false] at hmem
    rcases hmem with hmem | hmem | hmem | hmem <;> simp [hmem, Movement.advance, hskipValue]

variable {content key before : List Char}

theorem skipBlank_key_lt (key before text : List Char) :
    (skipBlank text).length < (skipBlank ('"' :: key ++ before ++ ':' :: text)).length := by
  have := length_skipBlank_le text
  have hskip : skipBlank ('"' :: key ++ before ++ ':' :: text) = '"' :: key ++ before ++ ':' :: text :=
    skipBlank_cons (by decide) _
  rw [hskip]
  simp
  omega

/-- A string after which there is a colon is a key; under another name its value is searched. -/
theorem otherKey (hkey : QuotedText content key) (hbefore : Blank before)
    (hne : String.ofList content ≠ name) (hfinds : Finds name scope after depth text found) :
    Finds name scope after depth ('"' :: key ++ before ++ ':' :: text) found := by
  have hcolon : skipBlank (before ++ ':' :: text) = ':' :: text := by
    rw [skipBlank_append hbefore, skipBlank_cons (by decide)]
  refine step (skipBlank_key_lt key before text) (fun length steps => ?_) hfinds
  rw [List.append_assoc, List.cons_append, skipBlank_cons (by decide), Movement.seekBelow]
  simp [Token.ofChar, Movement.run_readString hkey, hcolon, Movement.run_eat_colon, hne]

theorem matchingKey {blank value : List Char} {tree : Tree} {nesting : Nat}
    (hkey : QuotedText content key) (hbefore : Blank before) (hblank : Blank blank)
    (hwritten : Written nesting value tree) (hdelimits : Delimits text) (hname : String.ofList content = name)
    (hfinds : Finds name scope after depth text found) :
    Finds name scope after depth ('"' :: key ++ before ++ ':' :: (blank ++ (value ++ text))) (meaning tree :: found) := by
  intro length fuel steps hfuel hsteps
  have hlength := skipBlank_key_lt key before (blank ++ (value ++ text))
  have hopens := hwritten.spells.opens
  have hlengthValue : (skipBlank text).length < (skipBlank (blank ++ (value ++ text))).length := by
    have := length_skipBlank_le text
    have := hopens.length_pos
    rw [skipBlank_append hblank, hopens.skipBlank_append, List.length_append]
    omega
  obtain ⟨fuel, rfl⟩ := exists_eq_succ_of_lt (Nat.lt_of_lt_of_le hlength hfuel)
  obtain ⟨steps, rfl⟩ := exists_eq_succ_of_lt hsteps
  have hfound := hfinds length fuel ((skipBlank text).length + 1) (by omega) (Nat.lt_succ_self _)
  have hcolon : skipBlank (before ++ ':' :: (blank ++ (value ++ text))) = ':' :: (blank ++ (value ++ text)) := by
    rw [skipBlank_append hbefore, skipBlank_cons (by decide)]
  have hvalue : skipBlank (blank ++ (value ++ text)) = value ++ text := by
    rw [skipBlank_append hblank, hopens.skipBlank_append]
  obtain ⟨kind, hkind, hrun⟩ := Movement.run_found ⟨length, value ++ text, depth, some scope⟩
  rw [List.append_assoc, List.cons_append, skipBlank_cons (by decide), Movement.deepFrom, Movement.seekBelow]
  simp [Token.ofChar, Movement.run_readString hkey, hcolon, Movement.run_eat_colon, hvalue, hname, hrun,
    hwritten.run_readValue hdelimits, Movement.run_readDeep_succ, hfound]

/-- What is found in a value stands before what is found after it. -/
def GathersValues (name : String) (scope : Nat) (after : List Char) (depth nesting : Nat) : Prop :=
  GathersItems (Written nesting) (Finds name scope after depth) fun tree found => slotMeanings name tree ++ found

variable {nesting : Nat}

theorem member (hvalues : GathersValues name scope after depth nesting) :
    GathersItems (MemberText (Written nesting)) (Finds name scope after depth)
      fun member found =>
        (if member.1 = name then [meaning member.2] else slotMeanings name member.2) ++ found := by
  intro text member tail found hmember hfollows hfinds
  cases hmember with
  | @mk content key before blank value tree hkey hbefore hblank hvalue =>
      by_cases hname : String.ofList content = name
      · have hmatch := matchingKey hkey hbefore hblank hvalue hfollows.delimits hname hfinds
        simpa [hname] using hmatch
      · have hother := otherKey hkey hbefore hname (loops.blank hblank (hvalues _ _ _ _ hvalue hfollows hfinds))
        simpa [hname] using hother

theorem foldr_append {α : Type} (values : α → List Tree) (as : List α) (found : List Tree) :
    as.foldr (fun a found => values a ++ found) found = as.flatMap values ++ found := by
  induction as with
  | nil => rfl
  | cons a as ih => rw [List.foldr_cons, ih, List.flatMap_cons, List.append_assoc]

/-- What is found in a container, when its closing bracket leads to `found`. -/
theorem container {value : List Char} {tree : Tree} (hvalues : GathersValues name scope after (depth + 1) nesting)
    (hend : ∀ close, IsClose close → Finds name scope after (depth + 1) (close :: text) found)
    (hwritten : Written (nesting + 1) value tree) :
    ScalarText value tree ∨ ∃ c inner, value = c :: inner ∧ opensContainer c = true ∧
      Finds name scope after depth (value ++ text) (slotMeanings name tree ++ found) := by
  cases hwritten.spells with
  | scalar hscalar => exact .inl hscalar
  | @array inner items hitems =>
      have hitems : ItemsText (Written nesting) ']' inner items :=
        hitems.imp_of_mem fun item hmem _ hitem => hwritten.item hmem hitem
      have hinner := loops.items (.inl rfl) hvalues (hend ']' (.inl rfl)) hitems
      rw [foldr_append, ← slotMeanings_array] at hinner
      exact .inr ⟨_, inner, rfl, by decide, start (by decide) hinner⟩
  | @object inner members hmembers =>
      have hmembers : ItemsText (MemberText (Written nesting)) '\x7d' inner members := by
        refine hmembers.imp_of_mem fun member hmem _ hmember => ?_
        cases hmember with
        | mk hkey hbefore hafter hvalue => exact .mk hkey hbefore hafter (hwritten.member hmem hvalue)
      have hinner := loops.items (.inr rfl) (member hvalues) (hend '\x7d' (.inr rfl)) hmembers
      rw [foldr_append, ← slotMeanings_object] at hinner
      exact .inr ⟨_, inner, rfl, by decide, start (by decide) hinner⟩

theorem values (hdepth : scope < depth) : GathersValues name scope after depth nesting := by
  -- The nesting goes down from a container to its items, and the closing bracket leads to what is found after it.
  induction nesting generalizing depth with
  | zero =>
      intro value tree text found hwritten hfollows hfinds
      dsimp only
      rw [slotMeanings_of_isScalar (ScalarText.isScalar hwritten.spells)]
      exact scalar hwritten.spells hfollows hfinds
  | succ nesting ih =>
      intro value tree text found hwritten hfollows hfinds
      have hend : ∀ c, IsClose c → Finds name scope after (depth + 1) (c :: text) found :=
        fun c hclose => close hclose (by omega) hfinds
      rcases container (ih (by omega)) hend hwritten with hscalar | ⟨-, -, -, -, hfound⟩
      · dsimp only
        rw [slotMeanings_of_isScalar hscalar.isScalar]
        exact scalar hscalar hfollows hfinds
      · exact hfound

end Finds

namespace Movement

variable {nesting fuel : Nat} {value rest : List Char} {tree : Tree}

/-- Reading a field at any depth gives what the slots of the name hold, and passes the value that is searched. -/
theorem run_readDeep (hwritten : Written nesting value tree) (hdelimits : Delimits rest) (name : String)
    (length depth : Nat) (hfuel : (value ++ rest).length < fuel) :
    (readDeep name fuel).run ⟨length, value ++ rest, depth, none⟩ =
      .ok (slotMeanings name tree) ⟨length, skipBlank rest, depth, none⟩ := by
  obtain ⟨fuel, rfl⟩ := exists_eq_succ_of_lt hfuel
  have hcases : ScalarText value tree ∨ ∃ c inner, value = c :: inner ∧ opensContainer c = true ∧
      Finds name depth rest depth (value ++ rest) (slotMeanings name tree ++ []) := by
    -- A scalar is passed at once; only a container is searched up to its own bracket.
    cases nesting with
    | zero => exact .inl hwritten.spells
    | succ nesting => exact Finds.container (Finds.values (Nat.lt_succ_self _)) (fun _ => Finds.last) hwritten
  rcases hcases with hscalar | ⟨c, inner, rfl, hopens, hfinds⟩
  · obtain ⟨c, inner, rfl, hmem⟩ := hscalar.ofChar_head
    have hskipValue : skipValue.run ⟨length, c :: (inner ++ rest), depth, none⟩ =
        .ok () ⟨length, skipBlank rest, depth, none⟩ := run_skipValue hwritten.spells hdelimits
    rw [slotMeanings_of_isScalar hscalar.isScalar]
    simp only [wordTokens, List.mem_cons, List.not_mem_nil, or_false] at hmem
    rcases hmem with hmem | hmem | hmem | hmem | hmem <;> simp [readDeep, seekDeep, hmem, hskipValue]
  · have hskip : skipBlank (c :: inner ++ rest) = c :: inner ++ rest := hwritten.spells.opens.skipBlank_append rest
    have hlength : (skipBlank (c :: inner ++ rest)).length = (c :: inner ++ rest).length := by rw [hskip]
    have hrun := hfinds length fuel ((c :: inner ++ rest).length + 1) (by omega) (by omega)
    rw [hskip, List.append_nil] at hrun
    simp only [opensContainer, Bool.or_eq_true, beq_iff_eq] at hopens
    rcases hopens with rfl | rfl <;> exact hrun

/-- Extracting a field at any depth gives what the tree has under the name. -/
theorem run_deepValues (hplain : Plain nesting value tree) (hdelimits : Delimits rest) (name : String)
    (length depth : Nat) (hfuel : (value ++ rest).length < fuel) :
    (deepValues name fuel).run ⟨length, value ++ rest, depth, none⟩ =
      .ok (tree.deepMatches name) ⟨length, skipBlank rest, depth, none⟩ := by
  rw [deepValues_eq_map, run_map, run_readDeep hplain.toWritten hdelimits name length depth hfuel,
    slotMeanings_eq_slotValues hplain.distinct hplain.numberKeyFree,
    Tree.deepMatches_eq_flatMap hplain.spells.recordFree]

end Movement

end TreeQuery
