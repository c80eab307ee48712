import TreeQuery.Proofs.Stream.Moves

/-!
# Seeking within a container

Seeking a field or an item stops on the first value that the tree has there; without one the container is
passed. Leaving a container passes the rest of it.
-/

namespace TreeQuery.Movement

open Json Text

variable {nesting : Nat}

@[simp]
theorem isKey_hashName (name key : String) : isKey name (hashName name) key = (key == name) := by
  cases hkey : key == name with
  | false => simp [isKey, hkey]
  | true => simp [isKey, eq_of_beq hkey]

abbrev Member (nesting : Nat) : List Char → String × Tree → Prop := MemberText (Spells nesting)

/-! ### Fields -/

section Fields

variable {name key : String} {tree : Tree} {members : List (String × Tree)} {text : List Char} {fuel : Nat}
variable (rest : List Char) (length depth : Nat) (scope : Option Nat)

/-- The key of the first member decides whether the search ends on its value. -/
theorem exists_run_seekEntry (htext : ItemsText (Member nesting) '\x7d' text ((key, tree) :: members)) :
    ∃ value tail, Spells nesting value tree ∧ RestText (Member nesting) '\x7d' tail members ∧
      tail.length < text.length ∧
      (seekEntry name (hashName name) (fuel + 1)).run ⟨length, skipBlank (text ++ rest), depth, scope⟩ =
        (if key = name then found
          else do
            skipValue
            let _ ← eat .comma
            seekEntry name (hashName name) fuel).run ⟨length, value ++ (tail ++ rest), depth, scope⟩ := by
  cases htext with
  | some hsome =>
      obtain ⟨before, first, tail, member, others, hbefore, hmember, htail, rfl, has⟩ := hsome.exists_first
      obtain ⟨rfl, rfl⟩ := List.cons.inj has
      have hfirst := hmember.opens
      cases hmember with
      | @mk content quoted blank blank' value tree hkey hblank hblank' hvalue =>
          refine ⟨value, tail, hvalue, htail, by simp; omega, ?_⟩
          have hcolon : skipBlank (blank ++ ':' :: (blank' ++ (value ++ (tail ++ rest)))) =
              ':' :: (blank' ++ (value ++ (tail ++ rest))) := by
            rw [skipBlank_append hblank, skipBlank_cons (by decide)]
          have hat : skipBlank (blank' ++ (value ++ (tail ++ rest))) = value ++ (tail ++ rest) := by
            rw [skipBlank_append hblank', hvalue.opens.skipBlank_append]
          rw [List.append_assoc, List.append_assoc, skipBlank_append hbefore, hfirst.skipBlank_append]
          simp only [List.append_assoc, List.cons_append, seekEntry, EStateM.run_bind, run_token, token_cons,
            show Token.ofChar '"' = .string from rfl, run_readString hkey, hcolon, run_eat_colon, hat,
            isKey_hashName]
          by_cases hname : String.ofList content = name <;> simp [hname]

theorem exists_run_seekEntry_of_ne
    (htext : ItemsText (Member nesting) '\x7d' text ((key, tree) :: members)) (hne : key ≠ name) :
    ∃ text', ItemsText (Member nesting) '\x7d' text' members ∧ text'.length < text.length ∧
      (seekEntry name (hashName name) (fuel + 1)).run ⟨length, skipBlank (text ++ rest), depth, scope⟩ =
        (seekEntry name (hashName name) fuel).run ⟨length, skipBlank (text' ++ rest), depth, scope⟩ := by
  obtain ⟨value, tail, hvalue, htail, hlength, hrun⟩ := exists_run_seekEntry rest length depth scope htext
  obtain ⟨isComma, text', htext', hlength', heat⟩ :=
    exists_run_eat_comma (.inr rfl) htail rest length depth scope
  have hdelimits := (htail.followsItem (.inr rfl) rest).delimits
  refine ⟨text', htext', by omega, ?_⟩
  rw [hrun, if_neg hne]
  simp only [EStateM.run_bind, run_skipValue hvalue hdelimits, heat]

theorem exists_run_seekEntry_of_find?_eq_some (htext : ItemsText (Member nesting) '\x7d' text members)
    (hfind : Entries.find? members name = some tree) (hfuel : text.length < fuel) :
    ∃ kind value tail others, kind ≠ Found.nothing ∧ Spells nesting value tree ∧
      RestText (Member nesting) '\x7d' tail others ∧
      (seekEntry name (hashName name) fuel).run ⟨length, skipBlank (text ++ rest), depth, scope⟩ =
        .ok kind ⟨length, value ++ (tail ++ rest), depth, scope⟩ := by
  induction members generalizing text fuel with
  | nil => cases hfind
  | cons member members ih =>
      obtain ⟨key, first⟩ := member
      obtain ⟨fuel, rfl⟩ := exists_eq_succ_of_lt hfuel
      by_cases hkey : key = name
      · obtain rfl : first = tree := by simpa [Entries.find?_cons, hkey] using hfind
        obtain ⟨value, tail, hvalue, htail, -, hrun⟩ := exists_run_seekEntry rest length depth scope htext
        obtain ⟨kind, hkind, hfound⟩ := run_found ⟨length, value ++ (tail ++ rest), depth, scope⟩
        exact ⟨kind, value, tail, members, hkind, hvalue, htail, by rw [hrun, if_pos hkey, hfound]⟩
      · have hfind' : Entries.find? members name = some tree := by
          simpa [Entries.find?_cons, hkey] using hfind
        obtain ⟨text', htext', hlength, hrun⟩ := exists_run_seekEntry_of_ne rest length depth scope htext hkey
        rw [hrun]
        exact ih htext' hfind' (by omega)

theorem run_seekEntry_of_find?_eq_none (htext : ItemsText (Member nesting) '\x7d' text members)
    (hfind : Entries.find? members name = none) (hfuel : text.length < fuel) :
    (seekEntry name (hashName name) fuel).run ⟨length, skipBlank (text ++ rest), depth, scope⟩ =
      .ok .nothing ⟨length, skipBlank rest, depth - 1, scope⟩ := by
  induction members generalizing text fuel with
  | nil =>
      obtain ⟨fuel, rfl⟩ := exists_eq_succ_of_lt hfuel
      cases htext with
      | none hblank =>
          rw [List.append_assoc, skipBlank_append hblank, List.singleton_append, skipBlank_cons (by decide),
            seekEntry]
          simp [Token.ofChar, run_advance_close (show closesContainer '\x7d' = true by decide)]
      | some hsome => cases hsome
  | cons member members ih =>
      obtain ⟨key, first⟩ := member
      obtain ⟨fuel, rfl⟩ := exists_eq_succ_of_lt hfuel
      have hkey : key ≠ name := by
        rintro rfl
        simp [Entries.find?_cons] at hfind
      have hfind' : Entries.find? members name = none := by
        simpa [Entries.find?_cons, hkey] using hfind
      obtain ⟨text', htext', hlength, hrun⟩ := exists_run_seekEntry_of_ne rest length depth scope htext hkey
      rw [hrun]
      exact ih htext' hfind' (by omega)

theorem run_seekField_eq {object : List Char} (htext : ItemsText (Member nesting) '\x7d' object members) :
    ∃ text fuel, ItemsText (Member nesting) '\x7d' text members ∧ text.length < fuel ∧
      (seekField name (hashName name)).run ⟨length, '\x7b' :: object ++ rest, depth, scope⟩ =
        (seekEntry name (hashName name) fuel).run ⟨length, skipBlank (text ++ rest), depth + 1, scope⟩ := by
  obtain ⟨text, htext', htrimmed⟩ := htext.exists_trimmed (fun _ _ => MemberText.opens) (.inr rfl)
  obtain ⟨hobject, hskip⟩ := htrimmed rest
  refine ⟨text, (text ++ rest).length + 1, htext', by rw [List.length_append]; omega, ?_⟩
  simp only [seekField, List.cons_append, EStateM.run_bind, run_token, token_cons,
    show Token.ofChar '\x7b' = .beginObject from rfl, ne_eq, not_true_eq_false, if_false,
    run_advance_open (show opensContainer '\x7b' = true by decide), run_rest, hobject, hskip]

theorem exists_run_seekField {object : List Char} (htext : ItemsText (Member nesting) '\x7d' object members)
    (hfind : Entries.find? members name = some tree) :
    ∃ kind value tail others, kind ≠ Found.nothing ∧ Spells nesting value tree ∧
      RestText (Member nesting) '\x7d' tail others ∧
      (seekField name (hashName name)).run ⟨length, '\x7b' :: object ++ rest, depth, scope⟩ =
        .ok kind ⟨length, value ++ (tail ++ rest), depth + 1, scope⟩ := by
  obtain ⟨text, fuel, htext', hfuel, hrun⟩ := run_seekField_eq rest length depth scope htext
  rw [hrun]
  exact exists_run_seekEntry_of_find?_eq_some rest length (depth + 1) scope htext' hfind hfuel

theorem run_seekField_nothing {object : List Char} (htext : ItemsText (Member nesting) '\x7d' object members)
    (hfind : Entries.find? members name = none) :
    (seekField name (hashName name)).run ⟨length, '\x7b' :: object ++ rest, depth, scope⟩ =
      .ok .nothing ⟨length, skipBlank rest, depth, scope⟩ := by
  obtain ⟨text, fuel, htext', hfuel, hrun⟩ := run_seekField_eq rest length depth scope htext
  rw [hrun]
  exact run_seekEntry_of_find?_eq_none rest length (depth + 1) scope htext' hfind hfuel

end Fields

/-! ### Items -/

section Items

variable {items : List Tree} {text : List Char} (rest : List Char) (length depth : Nat) (scope : Option Nat)

theorem exists_run_eatArrayEnd {item : Tree} (htext : ItemsText (Spells nesting) ']' text (item :: items)) :
    ∃ value tail, Spells nesting value item ∧ RestText (Spells nesting) ']' tail items ∧
      eatArrayEnd.run ⟨length, skipBlank (text ++ rest), depth, scope⟩ =
        .ok false ⟨length, value ++ (tail ++ rest), depth, scope⟩ := by
  cases htext with
  | some hsome =>
      obtain ⟨before, first, tail, item, others, hbefore, hfirst, htail, rfl, has⟩ := hsome.exists_first
      obtain ⟨rfl, rfl⟩ := List.cons.inj has
      refine ⟨first, tail, hfirst, htail, ?_⟩
      rw [List.append_assoc, List.append_assoc, skipBlank_append hbefore, hfirst.opens.skipBlank_append]
      refine run_eat_of_ne fun htoken => ?_
      have hmem := hfirst.token_mem length (tail ++ rest) depth scope
      rw [htoken] at hmem
      exact absurd hmem (by decide)

theorem exists_run_seekItem (htext : ItemsText (Spells nesting) ']' text items) {index : Nat} {tree : Tree}
    (hitem : items[index]? = some tree) :
    ∃ value tail others, Spells nesting value tree ∧ RestText (Spells nesting) ']' tail others ∧
      (seekItem index).run ⟨length, skipBlank (text ++ rest), depth, scope⟩ =
        .ok true ⟨length, value ++ (tail ++ rest), depth, scope⟩ := by
  induction items generalizing text index with
  | nil => simp at hitem
  | cons item items ih =>
      obtain ⟨value, tail, hvalue, htail, hend⟩ := exists_run_eatArrayEnd rest length depth scope htext
      cases index with
      | zero =>
          obtain rfl : item = tree := by simpa using hitem
          exact ⟨value, tail, items, hvalue, htail, by simp [seekItem, hend]⟩
      | succ index =>
          obtain ⟨isComma, text', htext', -, heat⟩ :=
            exists_run_eat_comma (.inl rfl) htail rest length depth scope
          have hdelimits := (htail.followsItem (.inl rfl) rest).delimits
          have hitem' : items[index]? = some tree := by simpa using hitem
          obtain ⟨found, after, others, hfound, hafter, hrun⟩ := ih htext' hitem'
          refine ⟨found, after, others, hfound, hafter, ?_⟩
          simp only [seekItem, EStateM.run_bind, hend, Bool.false_eq_true, if_false,
            run_skipValue hvalue hdelimits, heat, hrun]

theorem run_seekItem_false (htext : ItemsText (Spells nesting) ']' text items) {index : Nat}
    (hitem : items[index]? = none) :
    (seekItem index).run ⟨length, skipBlank (text ++ rest), depth, scope⟩ =
      .ok false ⟨length, skipBlank rest, depth - 1, scope⟩ := by
  induction items generalizing text index with
  | nil =>
      have hend : eatArrayEnd.run ⟨length, skipBlank (text ++ rest), depth, scope⟩ =
          .ok true ⟨length, skipBlank rest, depth - 1, scope⟩ := by
        cases htext with
        | none hblank =>
            rw [List.append_assoc, skipBlank_append hblank, List.singleton_append, skipBlank_cons (by decide)]
            simp [eatArrayEnd, eat, Token.ofChar, run_advance_close (show closesContainer ']' = true by decide)]
        | some hsome => cases hsome
      cases index <;> simp [seekItem, hend]
  | cons item items ih =>
      obtain ⟨value, tail, hvalue, htail, hend⟩ := exists_run_eatArrayEnd rest length depth scope htext
      cases index with
      | zero => simp at hitem
      | succ index =>
          obtain ⟨isComma, text', htext', -, heat⟩ :=
            exists_run_eat_comma (.inl rfl) htail rest length depth scope
          have hdelimits := (htail.followsItem (.inl rfl) rest).delimits
          have hitem' : items[index]? = none := by simpa using hitem
          simp only [seekItem, EStateM.run_bind, hend, Bool.false_eq_true, if_false,
            run_skipValue hvalue hdelimits, heat, ih htext' hitem']

theorem exists_run_seekIndex (htext : ItemsText (Spells nesting) ']' text items) {index : Nat} {tree : Tree}
    (hitem : items[index]? = some tree) :
    ∃ value tail others, Spells nesting value tree ∧ RestText (Spells nesting) ']' tail others ∧
      (seekIndex index).run ⟨length, '[' :: text ++ rest, depth, scope⟩ =
        .ok true ⟨length, value ++ (tail ++ rest), depth + 1, scope⟩ := by
  obtain ⟨value, tail, others, hvalue, htail, hrun⟩ :=
    exists_run_seekItem rest length (depth + 1) scope htext hitem
  refine ⟨value, tail, others, hvalue, htail, ?_⟩
  simp [seekIndex, Token.ofChar, run_advance_open (show opensContainer '[' = true by decide), hrun]

theorem run_seekIndex_false (htext : ItemsText (Spells nesting) ']' text items) {index : Nat}
    (hitem : items[index]? = none) :
    (seekIndex index).run ⟨length, '[' :: text ++ rest, depth, scope⟩ =
      .ok false ⟨length, skipBlank rest, depth, scope⟩ := by
  have hrun := run_seekItem_false rest length (depth + 1) scope htext hitem
  simp [seekIndex, Token.ofChar, run_advance_open (show opensContainer '[' = true by decide), hrun]

end Items

end TreeQuery.Movement
