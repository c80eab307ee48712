import TreeQuery.Proofs.Path.FilterReading

/-!
# Reading written tests

A test is an operand alone, or an operand, an operator and what stands to the right of it. What follows it is the
closing parenthesis of a group or a connective.
-/

namespace TreeQuery

variable {style : FilterStyle} {operand : Operand} {rest text : List Char} {length : Nat}

/-! ### What follows a test -/

def endsTest (c : Char) : Bool := c == ')' || c == '&' || c == '|'

/-- A closing parenthesis or a connective comes next, perhaps after blanks. -/
def EndsTest (text : List Char) : Prop :=
  ∃ blank c tail, (∀ x ∈ blank, Text.isBlank x = true) ∧ endsTest c = true ∧ text = blank ++ c :: tail

theorem endsTest_facts {c : Char} (hends : endsTest c = true) :
    endsWord c = true ∧ Scan.endsPredicate c = true ∧ Text.isBlank c = false := by
  simp only [endsTest, Bool.or_eq_true, beq_iff_eq] at hends
  rcases hends with (rfl | rfl) | rfl <;> decide

theorem EndsTest.endsWord (hends : EndsTest rest) : EndsWord rest := by
  obtain ⟨blank, c, tail, hblank, hc, rfl⟩ := hends
  cases blank with
  | nil => exact endsWord_cons.mpr (endsTest_facts hc).1
  | cons first blank =>
      have hfirst : Text.isBlank first = true := hblank first (by simp)
      rw [List.cons_append, endsWord_cons, TreeQuery.endsWord, hfirst]
      rfl

theorem EndsTest.exists_skipBlank (hends : EndsTest rest) (length : Nat) :
    ∃ c tail, endsTest c = true ∧ Scan.skipBlank.run ⟨length, rest, 0⟩ = .ok () ⟨length, c :: tail, 0⟩ ∧
      Scan.skipBlank.run ⟨length, c :: tail, 0⟩ = .ok () ⟨length, c :: tail, 0⟩ := by
  obtain ⟨blank, c, tail, hblank, hc, rfl⟩ := hends
  have hhead : ∀ x ∈ (c :: tail).head?, Text.isBlank x = false := head?_cons_forall (endsTest_facts hc).2.2
  exact ⟨c, tail, hc, Scan.run_skipBlank_append length hblank hhead, Scan.run_skipBlank hhead⟩

/-! ### What stands to the right of an operator -/

section RightSide

variable {compile : String → Except Fault Path} {test : Comparison} {refers : Bool}

namespace Scan

theorem run_rightSide_number (htext : ∃ c tail, text = c :: tail ∧ isIntChar c = true) :
    (rightSide compile operand (.compare test)).run ⟨⟨length, text ++ rest, 0⟩, refers⟩ =
      Parser.afterScan refers ((numberFilter operand (.compare test)).run ⟨length, text ++ rest, 0⟩) := by
  obtain ⟨c, tail, rfl, hc⟩ := htext
  obtain ⟨hnumber, hquote, -, -⟩ := isIntChar_facts hc
  simp [rightSide, hquote, hnumber]

theorem run_rightSide_integer {value : Int} (hvalue : InWord value) (hrest : EndsWord rest) :
    (rightSide compile operand (.compare test)).run ⟨⟨length, intText value ++ rest, 0⟩, refers⟩ =
      .ok (.integer operand test value) ⟨⟨length, rest, 0⟩, refers⟩ := by
  rw [run_rightSide_number (exists_intText value)]
  simp [numberFilter, Operator.comparison, run_number_intText length hvalue hrest]

theorem run_rightSide_decimal {value : Decimal} (hvalue : value.InRange) (hscale : 1 ≤ value.scale)
    (hrest : EndsWord rest) :
    (rightSide compile operand (.compare test)).run ⟨⟨length, value.toChars ++ rest, 0⟩, refers⟩ =
      .ok (.decimal operand test value) ⟨⟨length, rest, 0⟩, refers⟩ := by
  rw [run_rightSide_number (exists_toChars_head value)]
  simp [numberFilter, Operator.comparison, run_number_toChars length hvalue hscale hrest]

theorem run_rightSide_string (value : String) :
    (rightSide compile operand (.compare test)).run ⟨⟨length, style.quoted value ++ rest, 0⟩, refers⟩ =
      .ok (.string operand test value) ⟨⟨length, rest, 0⟩, refers⟩ := by
  have hread := run_quoted style length value rest
  have hhead : (style.quoted value ++ rest).head? = some style.quote := rfl
  simp only [rightSide, EStateM.run_bind, run_parse, Parser.afterScan_ok, run_peek?, hhead]
  simp [style.isQuote_quote, stringFilter, Operator.comparison, hread]

theorem run_rightSide_keyword {c : Char} (hc : isQuote c = false ∧ startsNumber c = false ∧ c ≠ '$') :
    (rightSide compile operand (.compare test)).run ⟨⟨length, c :: text, 0⟩, refers⟩ =
      Parser.afterScan refers ((keywordFilter operand (.compare test)).run ⟨length, c :: text, 0⟩) := by
  simp [rightSide, hc]

theorem run_rightSide_null (hrest : EndsWord rest) :
    (rightSide compile operand (.compare .eq)).run ⟨⟨length, nullText ++ rest, 0⟩, refers⟩ =
      .ok (.absent operand) ⟨⟨length, rest, 0⟩, refers⟩ := by
  have hnull : (eatKeyword "null").run ⟨length, 'n' :: 'u' :: 'l' :: 'l' :: rest, 0⟩ = .ok true ⟨length, rest, 0⟩ :=
    run_eatKeyword rfl hrest
  have htext : nullText ++ rest = 'n' :: 'u' :: 'l' :: 'l' :: rest := rfl
  rw [htext, run_rightSide_keyword (by decide)]
  simp [keywordFilter, nullFilter, hnull]

theorem run_rightSide_bool (value equal : Bool) (hrest : EndsWord rest) :
    (rightSide compile operand (.compare (if equal then .eq else .ne))).run
        ⟨⟨length, boolText value ++ rest, 0⟩, refers⟩ =
      .ok (.bool operand value equal) ⟨⟨length, rest, 0⟩, refers⟩ := by
  cases value with
  | true =>
      have hothers : ∀ word ∈ ["null"], (eatKeyword word).run ⟨length, 't' :: 'r' :: 'u' :: 'e' :: rest, 0⟩ =
          .ok false ⟨length, 't' :: 'r' :: 'u' :: 'e' :: rest, 0⟩ := run_eatKeyword_of_ne (by decide)
      have htrue : (eatKeyword "true").run ⟨length, 't' :: 'r' :: 'u' :: 'e' :: rest, 0⟩ = .ok true ⟨length, rest, 0⟩ :=
        run_eatKeyword rfl hrest
      have htext : boolText true ++ rest = 't' :: 'r' :: 'u' :: 'e' :: rest := rfl
      simp only [List.forall_mem_cons] at hothers
      rw [htext, run_rightSide_keyword (by decide)]
      cases equal <;> simp [keywordFilter, boolFilter, hothers, htrue]
  | false =>
      have hothers : ∀ word ∈ ["null", "true"],
          (eatKeyword word).run ⟨length, 'f' :: 'a' :: 'l' :: 's' :: 'e' :: rest, 0⟩ =
            .ok false ⟨length, 'f' :: 'a' :: 'l' :: 's' :: 'e' :: rest, 0⟩ := run_eatKeyword_of_ne (by decide)
      have hfalse : (eatKeyword "false").run ⟨length, 'f' :: 'a' :: 'l' :: 's' :: 'e' :: rest, 0⟩ =
          .ok true ⟨length, rest, 0⟩ := run_eatKeyword rfl hrest
      have htext : boolText false ++ rest = 'f' :: 'a' :: 'l' :: 's' :: 'e' :: rest := rfl
      simp only [List.forall_mem_cons] at hothers
      rw [htext, run_rightSide_keyword (by decide)]
      cases equal <;> simp [keywordFilter, boolFilter, hothers, hfalse]

theorem run_rightSide_list {α : Type} {write : α → List Char} {read : α → Listed} {values : List α}
    (hreads : ∀ value ∈ values, ReadsListed (write value) (read value)) {negated : Bool} {found : Filter}
    (hfound : Filter.ofList? operand negated (values.map read) = some found) :
    (rightSide compile operand (.isIn negated)).run ⟨⟨length, style.list (values.map write) ++ rest, 0⟩, refers⟩ =
      .ok found ⟨⟨length, rest, 0⟩, refers⟩ := by
  rw [rightSide, run_parse, run_inList hreads hfound, Parser.afterScan_ok]

theorem run_bound {value : Int} (hvalue : InWord value) (hrest : EndsWord rest) :
    bound.run ⟨length, intText value ++ rest, 0⟩ = .ok (.integer value) ⟨length, rest, 0⟩ := by
  obtain ⟨c, tail, htext, hc⟩ := exists_intText value
  obtain ⟨hnumber, -, -, -⟩ := isIntChar_facts hc
  have hread := run_number_intText length hvalue hrest
  rw [htext, List.cons_append] at hread ⊢
  simp [bound, hnumber, hread]

theorem run_between {low high : Int} (hlow : InWord low) (hhigh : InWord high) (hrest : EndsWord rest)
    (negated : Bool) :
    (between operand negated).run
        ⟨length, intText low ++ (style.gap ++ (['a', 'n', 'd'] ++ (style.gap ++ (intText high ++ rest)))), 0⟩ =
      .ok (.between operand (.integer low) (.integer high) negated) ⟨length, rest, 0⟩ := by
  have hand : (eatKeyword "and").run ⟨length, ['a', 'n', 'd'] ++ (style.gap ++ (intText high ++ rest)), 0⟩ =
      .ok true ⟨length, style.gap ++ (intText high ++ rest), 0⟩ :=
    run_eatKeyword rfl (style.endsWord_gap _)
  have hword : ∀ c ∈ (['a', 'n', 'd'] ++ (style.gap ++ (intText high ++ rest))).head?, Text.isBlank c = false :=
    head?_cons_forall (by decide)
  have hbefore := run_skipBlank_gap style length hword
  have hafter := run_skipBlank_gap style length (head?_number_nonblank (exists_intText high) rest)
  generalize ['a', 'n', 'd'] ++ (style.gap ++ (intText high ++ rest)) = more at hand hbefore ⊢
  simp [between, run_bound hlow (style.endsWord_gap more), hbefore, hand, hafter, run_bound hhigh hrest]

end Scan

end RightSide

/-! ### Tests -/

section Tests

variable {compile : String → Except Fault Path} {refers : Bool}

theorem Scan.run_predicate_test (hoperand : operand.IsNamed) {operator value : List Char} {found : Operator}
    (hoperator : ∀ {rest}, EndsWord rest →
      Scan.operator.run ⟨length, operator ++ rest, 0⟩ = .ok found ⟨length, rest, 0⟩)
    (hstarts : ∃ c tail, operator = c :: tail ∧ Text.isBlank c = false ∧ endsPredicate c = false)
    (hvalue : ∀ c ∈ (value ++ rest).head?, Text.isBlank c = false) :
    (predicate compile).run ⟨⟨length, style.test operand operator value ++ rest, 0⟩, refers⟩ =
      (rightSide compile operand found).run ⟨⟨length, value ++ rest, 0⟩, refers⟩ := by
  obtain ⟨c, tail, rfl, hblank, hends⟩ := hstarts
  have htext : style.test operand (c :: tail) value ++ rest =
      style.operand operand ++ (style.gap ++ (c :: tail ++ (style.gap ++ (value ++ rest)))) := by
    simp [FilterStyle.test]
  have hgap := run_skipBlank_gap style length hvalue
  have hread := hoperator (style.endsWord_gap (value ++ rest))
  generalize style.gap ++ (value ++ rest) = more at hgap hread htext
  rw [List.cons_append] at hread htext
  have hbefore : skipBlank.run ⟨length, style.gap ++ c :: (tail ++ more), 0⟩ =
      .ok () ⟨length, c :: (tail ++ more), 0⟩ :=
    run_skipBlank_gap style length (head?_cons_forall hblank)
  rw [htext]
  simp [predicate, run_operand hoperand (style.endsWord_gap _), hbefore, hends, hread, hgap]

theorem Scan.run_predicate_present (hoperand : operand.IsNamed) (hrest : EndsTest rest) :
    ∃ rest', skipBlank.run ⟨length, rest', 0⟩ = skipBlank.run ⟨length, rest, 0⟩ ∧
      (predicate compile).run ⟨⟨length, style.operand operand ++ rest, 0⟩, refers⟩ =
        .ok (.present operand) ⟨⟨length, rest', 0⟩, refers⟩ := by
  obtain ⟨c, tail, hc, hskip, hagain⟩ := hrest.exists_skipBlank length
  refine ⟨c :: tail, hagain.trans hskip.symm, ?_⟩
  simp [predicate, run_operand hoperand hrest.endsWord, hskip, (endsTest_facts hc).2.1]

theorem Comparison.chars_starts (test : Comparison) :
    ∃ c tail, test.chars = c :: tail ∧ Text.isBlank c = false ∧ Scan.endsPredicate c = false := by
  cases test <;> exact ⟨_, _, rfl, by decide, by decide⟩

theorem FilterStyle.negatable_starts {c : Char} {word : List Char} (hblank : Text.isBlank c = false)
    (hends : Scan.endsPredicate c = false) (negated : Bool) :
    ∃ first tail, style.negatable negated (c :: word) = first :: tail ∧ Text.isBlank first = false ∧
      Scan.endsPredicate first = false := by
  cases negated with
  | false => exact ⟨c, word, rfl, hblank, hends⟩
  | true => exact ⟨'n', _, rfl, by decide, by decide⟩

theorem readsListed_nullable {values : List (Option Int)} (hvalues : ∀ value, some value ∈ values → InWord value) :
    ∀ value ∈ values, ReadsListed ((value.map intText).getD nullText) (nullableItem value) := by
  intro value hmem
  cases value with
  | none => exact readsListed_null
  | some value => exact readsListed_intText (hvalues value hmem)

theorem head?_list_nonblank (texts : List (List Char)) (rest : List Char) :
    ∀ c ∈ (style.list texts ++ rest).head?, Text.isBlank c = false := by
  cases texts <;> exact head?_cons_forall (by decide)

/-- A test is read up to what follows it, or past the blanks there. -/
theorem Filter.Writable.run_predicate {filter : Filter} (hwritable : filter.Writable) (hleaf : filter.isGroup = false)
    (style : FilterStyle) (compile : String → Except Fault Path) (length : Nat) (refers : Bool)
    (hrest : EndsTest rest) :
    ∃ rest', Scan.skipBlank.run ⟨length, rest', 0⟩ = Scan.skipBlank.run ⟨length, rest, 0⟩ ∧
      (Scan.predicate compile).run ⟨⟨length, filter.write style ++ rest, 0⟩, refers⟩ =
        .ok filter ⟨⟨length, rest', 0⟩, refers⟩ := by
  have hends := hrest.endsWord
  cases hwritable with
  | present hoperand => exact Scan.run_predicate_present hoperand hrest
  | absent hoperand =>
      refine ⟨rest, rfl, ?_⟩
      rw [write, Scan.run_predicate_test hoperand (Scan.run_operator_chars .eq) (Comparison.chars_starts .eq)
        (head?_cons_forall (by decide)), Scan.run_rightSide_null hends]
  | integer hoperand test hvalue =>
      refine ⟨rest, rfl, ?_⟩
      rw [write, Scan.run_predicate_test hoperand (Scan.run_operator_chars test) test.chars_starts
        (head?_number_nonblank (exists_intText _) _), Scan.run_rightSide_integer hvalue hends]
  | decimal hoperand test hvalue hscale =>
      refine ⟨rest, rfl, ?_⟩
      rw [write, Scan.run_predicate_test hoperand (Scan.run_operator_chars test) test.chars_starts
        (head?_number_nonblank (exists_toChars_head _) _), Scan.run_rightSide_decimal hvalue hscale hends]
  | string hoperand test value =>
      refine ⟨rest, rfl, ?_⟩
      rw [write, Scan.run_predicate_test hoperand (Scan.run_operator_chars test) test.chars_starts
        (head?_cons_forall (isQuote_facts style.isQuote_quote).1), Scan.run_rightSide_string]
  | bool hoperand value equal =>
      refine ⟨rest, rfl, ?_⟩
      rw [write, Scan.run_predicate_test hoperand (Scan.run_operator_chars _) (Comparison.chars_starts _)
        (by cases value <;> exact head?_cons_forall (by decide)), Scan.run_rightSide_bool value equal hends]
  | integers hoperand hlength hvalues negated =>
      refine ⟨rest, rfl, ?_⟩
      rw [write, Scan.run_predicate_test hoperand (Scan.run_operator_in negated)
        (style.negatable_starts (by decide) (by decide) negated) (head?_list_nonblank _ _)]
      exact Scan.run_rightSide_list (fun value hmem => readsListed_intText (hvalues value hmem))
        (Filter.ofList?_integers hlength)
  | strings hoperand hlength negated =>
      refine ⟨rest, rfl, ?_⟩
      rw [write, Scan.run_predicate_test hoperand (Scan.run_operator_in negated)
        (style.negatable_starts (by decide) (by decide) negated) (head?_list_nonblank _ _)]
      exact Scan.run_rightSide_list (fun value _ => readsListed_quoted style value) (Filter.ofList?_strings hlength)
  | nullableIntegers hoperand hlength hnull hvalues negated =>
      refine ⟨rest, rfl, ?_⟩
      rw [write, Scan.run_predicate_test hoperand (Scan.run_operator_in negated)
        (style.negatable_starts (by decide) (by decide) negated) (head?_list_nonblank _ _)]
      exact Scan.run_rightSide_list (readsListed_nullable hvalues) (Filter.ofList?_nullableIntegers hlength hnull)
  | between hoperand hlow hhigh negated =>
      refine ⟨rest, rfl, ?_⟩
      rw [write, Scan.run_predicate_test hoperand (Scan.run_operator_between negated)
        (style.negatable_starts (by decide) (by decide) negated)
        (by rw [List.append_assoc]; exact head?_number_nonblank (exists_intText _) _)]
      simpa [Scan.rightSide, Literal.chars] using
        congrArg (Parser.afterScan refers) (Scan.run_between hlow hhigh hends negated)
  | group connective hleft hright => cases hleaf

/-! ### How a test begins -/

def startsTest (c : Char) : Bool := startsName c || c == '@'

theorem startsTest_facts {c : Char} (hstarts : startsTest c = true) : Text.isBlank c = false ∧ c ≠ '(' := by
  constructor
  · rw [Bool.eq_false_iff]
    intro hblank
    simp only [Text.isBlank, Bool.or_eq_true, beq_iff_eq] at hblank
    rcases hblank with ((rfl | rfl) | rfl) | rfl <;> exact absurd hstarts (by decide)
  · rintro rfl
    exact absurd hstarts (by decide)

theorem FilterStyle.exists_operand (style : FilterStyle) (hoperand : operand.IsNamed) :
    ∃ c tail, style.operand operand = c :: tail ∧ startsTest c = true := by
  rcases style.anchor_eq with hanchor | hanchor
  · cases operand with
    | property name =>
        have hne : name.text.toList ≠ [] := fun hnil => hoperand.1 (String.toList_eq_nil_iff.mp hnil)
        obtain ⟨c, tail, hescape, hstarts⟩ := exists_escapeName hne
        refine ⟨c, tail, ?_, by rw [startsTest, hstarts, Bool.true_or]⟩
        rw [FilterStyle.operand, hanchor, List.nil_append, hescape]
    | size => exact ⟨'s', _, by rw [FilterStyle.operand, hanchor]; rfl, by decide⟩
    | kind => exact ⟨'t', _, by rw [FilterStyle.operand, hanchor]; rfl, by decide⟩
  · cases operand <;> exact ⟨'@', _, by rw [FilterStyle.operand, hanchor]; rfl, by decide⟩

theorem Filter.Writable.exists_write {filter : Filter} (hwritable : filter.Writable) (hleaf : filter.isGroup = false)
    (style : FilterStyle) : ∃ c tail, filter.write style = c :: tail ∧ startsTest c = true := by
  obtain ⟨operand, tail, hoperand, htext⟩ :
      ∃ operand tail, operand.IsNamed ∧ filter.write style = style.operand operand ++ tail := by
    cases hwritable with
    | present hoperand => exact ⟨_, [], hoperand, (List.append_nil _).symm⟩
    | absent hoperand | integer hoperand | decimal hoperand | string hoperand | bool hoperand | integers hoperand
    | strings hoperand | nullableIntegers hoperand | between hoperand => exact ⟨_, _, hoperand, rfl⟩
    | group => cases hleaf
  obtain ⟨c, name, hname, hstarts⟩ := style.exists_operand hoperand
  exact ⟨c, name ++ tail, by rw [htext, hname, List.cons_append], hstarts⟩

end Tests

end TreeQuery
