import TreeQuery.Proofs.Path.FilterReading
import TreeQuery.Query.Eval

/-!
# Lists of values in filters

A list is kept as the narrowest filter its values allow. What a list means is said here of its values, whatever they
are kept as, and every form but one agrees with that: a single integer is kept as a comparison with it, and such a
comparison passes over values that have no order with an integer where a longer list lets them through.
-/

namespace TreeQuery

variable {operand : Operand} {negated : Bool} {items before after : List Listed} {item : Listed} {value : Tree}

/-- Whether the value is the listed one. Integers are compared as numbers. -/
def Listed.equals (value : Tree) : Listed → Bool
  | null => value.isNull
  | bool found => value.asBool? == some found
  | string text => value.asString? == some text
  | number literal => value.compareNumbers literal.toTree == some .eq

/-- The lists that are kept as one filter whatever their length: strings, or integers with or without nulls. -/
def Listed.Uniform (items : List Listed) : Prop :=
  (∀ item ∈ items, item.string?.isSome = true) ∨ ∀ item ∈ items, item.nullableInteger?.isSome = true

instance (items : List Listed) : Decidable (Listed.Uniform items) := inferInstanceAs (Decidable (_ ∨ _))

/-- What a list says of a value. A list of integers alone says nothing of null, negated or not. -/
def Listed.answer (negated : Bool) (items : List Listed) (value : Tree) : Bool :=
  !(value.isNull && items.all fun item => item.integer?.isSome) && items.any (Listed.equals value) != negated

/-! ### Values and numbers -/

theorem Tree.compareNumbers_of_not_isNumber (hnumber : value.isNumber = false) (other : Tree) :
    value.compareNumbers other = none := by
  cases value with
  | integer _ => cases hnumber
  | decimal _ => cases hnumber
  | float _ => cases hnumber
  | _ => cases hother : other.asDecimal? <;> simp [compareNumbers, asDecimal?, asBinary64?]

theorem Tree.isNull_of_isNumber (hnumber : value.isNumber = true) : value.isNull = false := by
  cases value <;> first | rfl | cases hnumber

theorem Tree.inIntegers_eq (values : List Int) (negated : Bool) (value : Tree) :
    value.inIntegers values negated = (!value.isNull && (values.any value.equalsInteger != negated)) := by
  rw [inIntegers]
  cases hnull : value.isNull with
  | true => rfl
  | false =>
      cases hnumber : value.isNumber with
      | true => rfl
      | false =>
          have hany : values.any value.equalsInteger = false := by
            simp [equalsInteger, compareNumbers_of_not_isNumber hnumber]
          simp [hany]

theorem Tree.inNullableIntegers_eq (values : List (Option Int)) (negated : Bool) (value : Tree) :
    value.inNullableIntegers values negated =
      (values.any (fun found => (nullableItem found).equals value) != negated) := by
  rw [inNullableIntegers]
  cases hnumber : value.isNumber with
  | true =>
      have hnull := isNull_of_isNumber hnumber
      have hany : (values.filterMap id).any value.equalsInteger =
          values.any fun found => (nullableItem found).equals value := by
        rw [List.any_filterMap]
        congr 1
        funext found
        cases found with
        | none => simp [nullableItem, Listed.equals, hnull]
        | some n => rfl
      rw [hany]
      simp [hnull]
  | false =>
      -- Of the values that are not numbers only null can be in such a list.
      have hany : (values.any fun found => (nullableItem found).equals value) =
          (value.isNull && values.contains none) := by
        induction values with
        | nil => simp
        | cons found values ih =>
            rw [List.any_cons, ih, List.contains_cons, Bool.and_or_distrib_left]
            cases found with
            | none => simp [nullableItem, Listed.equals]
            | some n => simp [nullableItem, Listed.equals, compareNumbers_of_not_isNumber hnumber]
      cases hnull : value.isNull <;> simp [hany, hnull]

/-! ### Lists of each kind -/

/-- The filter that the list is kept as gives the answer of the list. -/
def Listed.Kept (operand : Operand) (negated : Bool) (items : List Listed) : Prop :=
  ∃ filter, Filter.ofList? operand negated items = some filter ∧
    ∀ root dropNulls tree, filter.holds root dropNulls tree =
      .ok (Listed.answer negated items (operand.read dropNulls tree))

theorem exists_map_eq {α β : Type} {read : β → Option α} {write : α → β}
    (hread : ∀ item value, read item = some value → write value = item) {items : List β}
    (hitems : ∀ item ∈ items, (read item).isSome = true) : ∃ values : List α, values.map write = items := by
  induction items with
  | nil => exact ⟨[], rfl⟩
  | cons item items ih =>
      obtain ⟨hitem, hothers⟩ := List.forall_mem_cons.mp hitems
      obtain ⟨value, hvalue⟩ := Option.isSome_iff_exists.mp hitem
      obtain ⟨values, rfl⟩ := ih hothers
      exact ⟨value :: values, by rw [List.map_cons, hread item value hvalue]⟩

theorem Listed.string?_eq_some (text : String) (hitem : item.string? = some text) : Listed.string text = item := by
  cases item <;> simp_all [string?]

theorem Listed.nullableInteger?_eq_some (found : Option Int) (hitem : item.nullableInteger? = some found) :
    nullableItem found = item := by
  cases item with
  | null => cases hitem; rfl
  | number literal => cases literal <;> cases hitem; rfl
  | _ => cases hitem

theorem Listed.kept_strings {texts : List String} (hne : texts ≠ []) : Kept operand negated (texts.map .string) := by
  have hanswer (value : Tree) : answer negated (texts.map .string) value =
      (texts.any (fun text => value.asString? == some text) != negated) := by
    obtain ⟨text, texts, rfl⟩ := List.exists_cons_of_ne_nil hne
    simp [answer, integer?, equals, Function.comp_def]
  by_cases hlength : 2 ≤ texts.length
  · refine ⟨_, Filter.ofList?_strings hlength, fun root dropNulls tree => ?_⟩
    rw [hanswer, Filter.holds]
  · obtain ⟨text, rfl⟩ : ∃ text, texts = [text] := by
      refine List.length_eq_one_iff.mp ?_
      have := List.length_pos_iff.mpr hne
      omega
    refine ⟨_, rfl, fun root dropNulls tree => ?_⟩
    rw [hanswer, toFilter, Filter.holds]
    cases negated <;> simp [Comparison.stringHolds, bne]

theorem Listed.kept_nullables {values : List (Option Int)} (hnull : none ∈ values) :
    Kept operand negated (values.map nullableItem) := by
  have hanswer (value : Tree) : answer negated (values.map nullableItem) value =
      (values.any (fun found => (nullableItem found).equals value) != negated) := by
    have hall : ((values.map nullableItem).all fun item => item.integer?.isSome) = false :=
      List.all_eq_false.mpr ⟨.null, List.mem_map_of_mem hnull, Bool.false_ne_true⟩
    simp [answer, hall, Function.comp_def]
  by_cases hlength : 2 ≤ values.length
  · refine ⟨_, Filter.ofList?_nullableIntegers hlength hnull, fun root dropNulls tree => ?_⟩
    rw [hanswer, Filter.holds, Tree.inNullableIntegers_eq]
  · obtain rfl : values = [none] := by
      obtain ⟨value, rfl⟩ : ∃ value, values = [value] := by
        refine List.length_eq_one_iff.mp ?_
        have := List.length_pos_of_mem hnull
        omega
      rw [List.mem_singleton.mp hnull]
    refine ⟨_, rfl, fun root dropNulls tree => ?_⟩
    rw [hanswer]
    cases negated <;> simp [nullableItem, toFilter, Filter.holds, equals, bne]

theorem Listed.answer_integers (values : List Int) (value : Tree) :
    answer negated (values.map fun n => .number (.integer n)) value =
      (!value.isNull && (values.any value.equalsInteger != negated)) := by
  have hall : ((values.map fun n => Listed.number (.integer n)).all fun item => item.integer?.isSome) = true := by
    simp [integer?]
  rw [answer, hall, List.any_map, Bool.and_true]
  rfl

theorem Listed.kept_integers {values : List Int} (hlength : values.length ≠ 1) :
    Kept operand negated (values.map fun n => .number (.integer n)) := by
  refine ⟨_, Filter.ofList?_integers hlength, fun root dropNulls tree => ?_⟩
  rw [answer_integers, Filter.holds, Tree.inIntegers_eq]

/-- A list is kept as what it says, unless it is a single integer. -/
theorem Listed.kept_of_uniform (huniform : Uniform items) (hne : items ≠ [])
    (hlone : ∀ n, items ≠ [.number (.integer n)]) : Kept operand negated items := by
  rcases huniform with hstrings | hnullables
  · obtain ⟨texts, rfl⟩ := exists_map_eq (fun _ => string?_eq_some) hstrings
    exact kept_strings fun hnil => hne (by rw [hnil, List.map_nil])
  · obtain ⟨values, rfl⟩ := exists_map_eq (fun _ => nullableInteger?_eq_some) hnullables
    by_cases hnull : none ∈ values
    · exact kept_nullables hnull
    · obtain ⟨integers, rfl⟩ : ∃ integers : List Int, integers.map some = values := by
        refine exists_map_eq (fun (found : Option Int) n (hfound : found = some n) => hfound.symm) fun found hmem => ?_
        cases found with
        | none => exact absurd hmem hnull
        | some n => rfl
      rw [List.map_map] at hlone ⊢
      refine kept_integers fun hlength => ?_
      obtain ⟨n, rfl⟩ := List.length_eq_one_iff.mp hlength
      exact hlone n rfl

/-! ### Repeated values -/

theorem Listed.answer_repeat (hmem : item ∈ before ++ after) (value : Tree) :
    answer negated (before ++ item :: after) value = answer negated (before ++ after) value := by
  have hany (test : Listed → Bool) : (before ++ item :: after).any test = (before ++ after).any test := by
    cases htest : test item with
    | false => simp [htest]
    | true =>
        rw [List.any_eq_true.mpr ⟨item, hmem, htest⟩]
        simp [htest]
  have hall (test : Listed → Bool) : (before ++ item :: after).all test = (before ++ after).all test := by
    rw [List.all_eq_not_any_not, hany, ← List.all_eq_not_any_not]
  rw [answer, answer, hany, hall]

/-- The values that a single integer passes over when it is negated: they are not null and have no order with it. -/
def Listed.Overlooks (negated : Bool) (items : List Listed) (value : Tree) : Prop :=
  negated = true ∧ ∃ n, items = [.number (.integer n)] ∧ value.isNull = false ∧
    value.compareNumbers (.integer n) = none

theorem Comparison.numberHolds_eq (test : Comparison) (value literal : Tree) :
    test.numberHolds value literal = ((value.compareNumbers literal).map test.accepts).getD false := by
  rw [numberHolds]
  cases hnumber : value.isNumber with
  | true => rfl
  | false => rw [Tree.compareNumbers_of_not_isNumber hnumber]; rfl

theorem Listed.numberHolds_of_not_overlooks {n : Int} (hsees : ¬ Overlooks negated [.number (.integer n)] value) :
    (if negated then Comparison.ne else .eq).numberHolds value (.integer n) =
      answer negated [.number (.integer n)] value := by
  have hanswer : answer negated [.number (.integer n)] value = _ := answer_integers [n] value
  rw [Comparison.numberHolds_eq, hanswer]
  cases horder : value.compareNumbers (.integer n) with
  | none =>
      have hnull : negated = true → value.isNull = true := fun hnegated =>
        Bool.not_eq_false _ ▸ fun hpresent => hsees ⟨hnegated, n, rfl, hpresent, horder⟩
      cases negated with
      | false => simp [Tree.equalsInteger, horder]
      | true => simp [hnull rfl]
  | some order =>
      have hpresent : value.isNull = false := by
        cases hnumber : value.isNumber with
        | true => exact Tree.isNull_of_isNumber hnumber
        | false =>
            rw [Tree.compareNumbers_of_not_isNumber hnumber] at horder
            cases horder
      cases negated <;> simp [Tree.equalsInteger, horder, hpresent, Comparison.accepts, bne]

/-- **Repeating a value changes one kind of list only.** A list of strings, or of integers with or without nulls, and
the same list with one of its values repeated give the same answer, whatever filters they are kept as. The exception is
a single integer that is negated: it rejects the values that have no order with an integer, and the repeated one accepts
them. -/
theorem Filter.holds_ofList?_repeat (operand : Operand) (negated : Bool) (huniform : Listed.Uniform (before ++ after))
    (hmem : item ∈ before ++ after) :
    ∃ found repeated, ofList? operand negated (before ++ after) = some found ∧
      ofList? operand negated (before ++ item :: after) = some repeated ∧
      ∀ root dropNulls tree,
        (¬ Listed.Overlooks negated (before ++ after) (operand.read dropNulls tree) →
          repeated.holds root dropNulls tree = found.holds root dropNulls tree) ∧
        (Listed.Overlooks negated (before ++ after) (operand.read dropNulls tree) →
          found.holds root dropNulls tree = .ok false ∧ repeated.holds root dropNulls tree = .ok true) := by
  have hlength : 2 ≤ (before ++ item :: after).length := by
    have hpos := List.length_pos_of_mem hmem
    rw [List.length_append] at hpos
    simp only [List.length_append, List.length_cons]
    omega
  have huniform' : Listed.Uniform (before ++ item :: after) := by
    have hsub : ∀ other ∈ before ++ item :: after, other ∈ before ++ after := by
      intro other hother
      rcases List.mem_cons.mp (List.perm_middle.mem_iff.mp hother) with rfl | hother
      · exact hmem
      · exact hother
    exact huniform.imp (fun h other hother => h other (hsub other hother)) fun h other hother =>
      h other (hsub other hother)
  obtain ⟨repeated, hrepeated, hholds⟩ : Listed.Kept operand negated (before ++ item :: after) := by
    refine Listed.kept_of_uniform huniform' (by simp) fun n heq => ?_
    rw [heq, List.length_singleton] at hlength
    exact absurd hlength (by decide)
  by_cases hlone : ∃ n, before ++ after = [.number (.integer n)]
  · obtain ⟨n, hlone⟩ := hlone
    refine ⟨.integer operand (if negated then .ne else .eq) n, repeated, by rw [hlone]; rfl, hrepeated,
      fun root dropNulls tree => ?_⟩
    rw [hholds, Listed.answer_repeat hmem, hlone, holds]
    refine ⟨fun hsees => by rw [Listed.numberHolds_of_not_overlooks hsees], ?_⟩
    rintro ⟨rfl, m, heq, hpresent, horder⟩
    obtain rfl : n = m := by simpa using heq
    have hanswer : Listed.answer true [.number (.integer n)] (operand.read dropNulls tree) = _ :=
      Listed.answer_integers [n] _
    rw [Comparison.numberHolds_eq, hanswer]
    simp [horder, hpresent, Tree.equalsInteger]
  · obtain ⟨found, hfound, hholds'⟩ : Listed.Kept operand negated (before ++ after) :=
      Listed.kept_of_uniform huniform (List.ne_nil_of_mem hmem) fun n heq => hlone ⟨n, heq⟩
    refine ⟨found, repeated, hfound, hrepeated, fun root dropNulls tree => ⟨fun _ => ?_, ?_⟩⟩
    · rw [hholds, hholds', Listed.answer_repeat hmem]
    · rintro ⟨-, n, heq, -⟩
      exact absurd ⟨n, heq⟩ hlone

/-- Two integers and a null, of which one is repeated, and a string that is in neither list. -/
theorem Filter.holds_ofList?_repeat_null :
    let items : List Listed := [.number (.integer 7), .null]
    Listed.Uniform items ∧ Listed.null ∈ items ∧
      ∃ found repeated, ofList? (.property "n") true items = some found ∧
        ofList? (.property "n") true (items ++ [.null]) = some repeated ∧
        repeated.holds .null true (.object [("n", .string "x")]) = .ok true ∧
        found.holds .null true (.object [("n", .string "x")]) = .ok true := by
  intro items
  have huniform : Listed.Uniform (items ++ []) := by decide
  have hmem : Listed.null ∈ items ++ [] := by decide
  obtain ⟨found, repeated, hfound, hrepeated, hholds⟩ := holds_ofList?_repeat (.property "n") true huniform hmem
  have hsees : ¬ Listed.Overlooks true (items ++ [])
      ((Operand.property "n").read true (.object [("n", .string "x")])) := by
    rintro ⟨-, n, heq, -⟩
    cases heq
  obtain rfl : Filter.nullableIntegers (.property "n") [some 7, none] true = found := Option.some.inj hfound
  have hsame := (hholds .null true (.object [("n", .string "x")])).1 hsees
  exact ⟨huniform, hmem, _, repeated, hfound, hrepeated, hsame, rfl⟩

/-- A string is not the integer 5; a list of it rejects the string all the same, and accepts it once 5 is repeated. -/
theorem Filter.holds_ofList?_lone :
    let five : Listed := .number (.integer 5)
    let item := Tree.object [("n", .string "x")]
    ∃ found repeated, ofList? (.property "n") true [five] = some found ∧
      ofList? (.property "n") true [five, five] = some repeated ∧
      found.holds .null true item = .ok false ∧ repeated.holds .null true item = .ok true :=
  ⟨_, _, rfl, rfl, rfl, rfl⟩

end TreeQuery
