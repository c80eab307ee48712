import Mathlib.Tactic.NormNum
import TreeQuery.Proofs.Query.Lists
import TreeQuery.Proofs.Tree.Meaning

/-!
# Tests of numbers

The filters that test numbers ask a question about a rational: how it relates to a bound, whether it lies between two, or
whether it is one of a list. For an integer or a decimal they give the answer that the question has for its exact value,
so no answer depends on the form of a number.
-/

namespace TreeQuery

/-! ### Questions about a rational -/

/-- How the numbers on both sides of a comparison relate where it holds. -/
def Comparison.Relates (x y : ℚ) : Comparison → Prop
  | eq => x = y
  | ne => x ≠ y
  | gt => y < x
  | ge => y ≤ x
  | lt => x < y
  | le => x ≤ y

inductive NumberQuestion
  | comparison (test : Comparison) (bound : ℚ)
  | between (low high : ℚ) (negated : Bool)
  | among (values : List ℚ) (negated : Bool)

def NumberQuestion.Holds (x : ℚ) : NumberQuestion → Prop
  | comparison test bound => test.Relates x bound
  | between low high false => low ≤ x ∧ x ≤ high
  | between low high true => x < low ∨ high < x
  | among values false => x ∈ values
  | among values true => x ∉ values

def Literal.toRat : Literal → ℚ
  | integer value => value
  | decimal value => value.toRat

/-- What a filter asks of a number, and where it reads the number. A filter that compares with another path asks a question
about numbers if that path leads to one. -/
def Filter.question? (root : Tree) : Filter → Option (Operand × NumberQuestion)
  | integer operand test value => some (operand, .comparison test value)
  | decimal operand test value => some (operand, .comparison test value.toRat)
  | between operand low high negated => some (operand, .between low.toRat high.toRat negated)
  | integers operand values negated => some (operand, .among (values.map Int.cast) negated)
  | nullableIntegers operand values negated => some (operand, .among ((values.filterMap id).map Int.cast) negated)
  | reference operand test path =>
    match path.follow root with
    | .ok tree => tree.number?.map fun bound => (operand, .comparison test bound)
    | .error _ => none
  | _ => none

/-! ### The tests -/

section Tests

variable {value literal : Tree} {x y : ℚ} {negated : Bool}

theorem Comparison.accepts_compare (test : Comparison) (x y : ℚ) :
    test.accepts (compare x y) = true ↔ test.Relates x y := by
  cases test with
  | eq => simp [accepts, Relates]
  | ne => simp [accepts, Relates]
  | gt => simp [accepts, Relates, compare_gt_iff_gt]
  | ge => simp [accepts, Relates, compare_lt_iff_lt]
  | lt => simp [accepts, Relates, compare_lt_iff_lt]
  | le => simp [accepts, Relates, compare_gt_iff_gt]

theorem Literal.number?_toTree (literal : Literal) : literal.toTree.number? = some literal.toRat := by
  cases literal <;> rfl

theorem Comparison.numberHolds_iff (test : Comparison) (hvalue : value.number? = some x)
    (hliteral : literal.number? = some y) : test.numberHolds value literal = true ↔ test.Relates x y := by
  rw [numberHolds_eq, Tree.compareNumbers_eq hvalue hliteral]
  exact test.accepts_compare x y

theorem Comparison.treeHolds_iff (test : Comparison) (hvalue : value.number? = some x)
    (hliteral : literal.number? = some y) : test.treeHolds value literal = true ↔ test.Relates x y := by
  have hsame := Tree.sameValue_numbers hvalue hliteral
  have hordered (heq : test ≠ eq) (hne : test ≠ ne) : test.treeHolds value literal = true ↔ test.Relates x y := by
    have htest : test.treeHolds value literal = (value.isNumber && test.numberHolds value literal) := by
      cases test <;> first | exact absurd rfl heq | exact absurd rfl hne | (cases value <;> cases hvalue <;> rfl)
    rw [htest, Tree.isNumber_of_number? hvalue, Bool.true_and, numberHolds_iff test hvalue hliteral]
  cases test with
  | eq => exact hsame
  | ne =>
      rw [treeHolds, Bool.not_eq_true', ← Bool.not_eq_true, hsame]
      rfl
  | _ => exact hordered (by decide) (by decide)

theorem Tree.any_equalsInteger_iff (hvalue : value.number? = some x) (values : List Int) :
    values.any value.equalsInteger = true ↔ x ∈ values.map (Int.cast : Int → ℚ) := by
  rw [List.any_eq_true, List.mem_map]
  refine exists_congr fun n => and_congr_right fun _ => ?_
  rw [equalsInteger, compareNumbers_eq hvalue (rfl : (integer n).number? = some (n : ℚ)), beq_iff_eq, Option.some_inj,
    compare_eq_iff_eq, eq_comm]

theorem NumberQuestion.holds_among_iff {listed : Bool} {values : List ℚ} (hlisted : listed = true ↔ x ∈ values) :
    (listed != negated) = true ↔ (among values negated).Holds x := by
  cases negated with
  | false => simpa [Holds] using hlisted
  | true => simpa [Holds] using hlisted.not

theorem NumberQuestion.holds_between_iff {inside : Bool} {low high : ℚ} (hinside : inside = true ↔ low ≤ x ∧ x ≤ high) :
    (inside != negated) = true ↔ (between low high negated).Holds x := by
  cases negated with
  | false => simpa [Holds] using hinside
  | true =>
      have hnot := hinside.not
      rw [not_and_or, not_le, not_le] at hnot
      simpa [Holds] using hnot

theorem Tree.betweenHolds_iff (hvalue : value.number? = some x) (low high : Literal) :
    value.betweenHolds low.toTree high.toTree negated = true ↔
      (NumberQuestion.between low.toRat high.toRat negated).Holds x := by
  have hnumber := isNumber_of_number? hvalue
  rw [betweenHolds, isNull_of_isNumber hnumber, hnumber]
  refine NumberQuestion.holds_between_iff ?_
  rw [compareNumbers_eq hvalue low.number?_toTree, compareNumbers_eq hvalue high.number?_toTree]
  simp [compare_lt_iff_lt, compare_gt_iff_gt]

/-- A filter gives the answer of its question. -/
theorem Filter.holds_question {filter : Filter} {root item : Tree} {dropNulls : Bool} {operand : Operand}
    {question : NumberQuestion} (hquestion : filter.question? root = some (operand, question))
    (hvalue : (operand.read dropNulls item).number? = some x) :
    ∃ answer, filter.holds root dropNulls item = .ok answer ∧ (answer = true ↔ question.Holds x) := by
  have hnumber := Tree.isNumber_of_number? hvalue
  have hnull := Tree.isNull_of_isNumber hnumber
  cases filter with
  | integer operand test bound =>
      cases hquestion
      exact ⟨_, rfl, test.numberHolds_iff hvalue rfl⟩
  | decimal operand test bound =>
      cases hquestion
      exact ⟨_, rfl, test.numberHolds_iff hvalue rfl⟩
  | between operand low high negated =>
      cases hquestion
      exact ⟨_, rfl, Tree.betweenHolds_iff hvalue low high⟩
  | integers operand values negated =>
      cases hquestion
      refine ⟨_, rfl, ?_⟩
      rw [Tree.inIntegers, hnull, hnumber]
      exact NumberQuestion.holds_among_iff (Tree.any_equalsInteger_iff hvalue values)
  | nullableIntegers operand values negated =>
      cases hquestion
      refine ⟨_, rfl, ?_⟩
      rw [Tree.inNullableIntegers, hnull, hnumber]
      exact NumberQuestion.holds_among_iff (Tree.any_equalsInteger_iff hvalue _)
  | reference operand test path =>
      rw [question?] at hquestion
      cases hfollow : path.follow root with
      | error fault => rw [hfollow] at hquestion; cases hquestion
      | ok tree =>
          rw [hfollow] at hquestion
          obtain ⟨bound, hbound, hpair⟩ := Option.map_eq_some_iff.mp hquestion
          cases hpair
          refine ⟨_, ?_, test.treeHolds_iff hvalue hbound⟩
          rw [holds, hfollow, hnull]
          rfl
  | _ => cases hquestion

end Tests

/-! ### The order of numbers -/

/-- The comparison puts the first tree not after the second. -/
def Tree.AtMost (first second : Tree) : Prop := ∃ order, first.compareNumbers second = some order ∧ order ≠ .gt

theorem Tree.atMost_iff {first second : Tree} {x y : ℚ} (hfirst : first.number? = some x)
    (hsecond : second.number? = some y) : first.AtMost second ↔ x ≤ y := by
  simp [AtMost, compareNumbers_eq hfirst hsecond, compare_gt_iff_gt]

/-- **Tests of numbers depend on exact values alone.** Integers and decimals are compared as rationals, which is a total
order up to the form of a number. A filter that tests a number gives the answer that its question has for the exact
value, and filters that ask the same question, of operands with the same value, agree. -/
theorem Filter.holds_number :
    (∀ (first second : Tree) (x y : ℚ), first.number? = some x → second.number? = some y →
        first.compareNumbers second = some (compare x y) ∧ (first.AtMost second ∨ second.AtMost first) ∧
          (first.AtMost second → second.AtMost first → x = y) ∧
          ∀ (third : Tree) (z : ℚ), third.number? = some z →
            first.AtMost second → second.AtMost third → first.AtMost third) ∧
      (∀ (filter : Filter) (root item : Tree) (dropNulls : Bool) (operand : Operand) (question : NumberQuestion) (x : ℚ),
        filter.question? root = some (operand, question) → (operand.read dropNulls item).number? = some x →
          ∃ answer, filter.holds root dropNulls item = .ok answer ∧ (answer = true ↔ question.Holds x)) ∧
      ∀ (filter filter' : Filter) (root root' item item' : Tree) (dropNulls dropNulls' : Bool)
        (operand operand' : Operand) (question : NumberQuestion) (x : ℚ),
        filter.question? root = some (operand, question) → filter'.question? root' = some (operand', question) →
          (operand.read dropNulls item).number? = some x → (operand'.read dropNulls' item').number? = some x →
            filter.holds root dropNulls item = filter'.holds root' dropNulls' item' := by
  refine ⟨fun first second x y hfirst hsecond => ?_, fun _ _ _ _ _ _ _ => holds_question, ?_⟩
  · rw [Tree.atMost_iff hfirst hsecond, Tree.atMost_iff hsecond hfirst]
    refine ⟨Tree.compareNumbers_eq hfirst hsecond, le_total x y, le_antisymm, fun third z hthird hle hle' => ?_⟩
    rw [Tree.atMost_iff hsecond hthird] at hle'
    exact (Tree.atMost_iff hfirst hthird).mpr (hle.trans hle')
  · intro filter filter' root root' item item' dropNulls dropNulls' operand operand' question x hquestion hquestion' hvalue
      hvalue'
    obtain ⟨answer, hanswer, hholds⟩ := holds_question hquestion hvalue
    obtain ⟨answer', hanswer', hholds'⟩ := holds_question hquestion' hvalue'
    rw [hanswer, hanswer', Bool.eq_iff_iff.mpr (hholds.trans hholds'.symm)]

/-- The operand `1` and bounds `1` and `2.5` against the operand `1.0` and bounds `1.00` and `2.50`, and a reference to
`1.0`. -/
theorem Filter.holds_number_forms :
    let operand := Operand.property "n"
    let filter := Filter.between operand (.integer 1) (.decimal ⟨25, 1⟩) false
    let filter' := Filter.between operand (.decimal ⟨100, 2⟩) (.decimal ⟨250, 2⟩) false
    let reference := Filter.reference operand .ge (.mk "$.least" [.property "least" false] false true)
    let root := Tree.object [("least", .decimal ⟨10, 1⟩)]
    let item := Tree.object [("n", .integer 1)]
    let item' := Tree.object [("n", .decimal ⟨10, 1⟩)]
    (operand.read true item).number? = some 1 ∧ (operand.read true item').number? = some 1 ∧
      filter.holds root true item = .ok true ∧ filter.holds root true item = filter'.holds root true item' ∧
        reference.holds root true item = .ok true ∧ (Tree.integer 1).AtMost (.decimal ⟨10, 1⟩) := by
  intro operand filter filter' reference root item item'
  have hone : (⟨10, 1⟩ : Decimal).toRat = 1 := by norm_num [Decimal.toRat, tenTo]
  have hlow : (⟨100, 2⟩ : Decimal).toRat = 1 := by norm_num [Decimal.toRat, tenTo]
  have hhigh : (⟨25, 1⟩ : Decimal).toRat = 5 / 2 := by norm_num [Decimal.toRat, tenTo]
  have hhigh' : (⟨250, 2⟩ : Decimal).toRat = 5 / 2 := by norm_num [Decimal.toRat, tenTo]
  have hitem : (operand.read true item).number? = some 1 := congrArg some Int.cast_one
  have hitem' : (operand.read true item').number? = some 1 := congrArg some hone
  have hquestion : filter.question? root = some (operand, .between 1 (5 / 2) false) := by
    simp only [filter, question?, Literal.toRat, hhigh, Int.cast_one]
  have hquestion' : filter'.question? root = some (operand, .between 1 (5 / 2) false) := by
    simp only [filter', question?, Literal.toRat, hlow, hhigh']
  have hreference : reference.question? root = some (operand, .comparison .ge 1) :=
    congrArg (fun bound => some (operand, NumberQuestion.comparison .ge bound)) hone
  obtain ⟨horder, hanswers, hsame⟩ := holds_number
  obtain ⟨answer, hanswer, hholds⟩ := hanswers _ _ _ _ _ _ _ hquestion hitem
  obtain ⟨found, hfound, hfoundHolds⟩ := hanswers _ _ _ _ _ _ _ hreference hitem
  obtain ⟨hcompare, -⟩ := horder (.integer 1) (.decimal ⟨10, 1⟩) 1 1 hitem hitem'
  rw [hholds.mpr ⟨le_refl 1, by norm_num⟩] at hanswer
  rw [hfoundHolds.mpr (le_refl 1)] at hfound
  exact ⟨hitem, hitem', hanswer, hsame _ _ _ _ _ _ _ _ _ _ _ _ hquestion hquestion' hitem hitem', hfound, _, hcompare,
    by simp⟩

end TreeQuery
