import TreeQuery.Proofs.Path.FilterTests

/-!
# Compiling written filters

Connectives join terms from the left, and a term is a test or a filter in parentheses. A written filter in brackets
compiles to a single segment that holds the filter it was written for.
-/

namespace TreeQuery

variable {style : FilterStyle} {filter : Filter} {rest more : List Char} {length fuel : Nat}
  {compile : String → Except Fault Path} {refers : Bool}

theorem endsTest_gap {c : Char} (style : FilterStyle) (hends : endsTest c = true) (text : List Char) :
    EndsTest (style.gap ++ c :: text) :=
  ⟨style.gap, c, text, style.isBlank_gap, hends, rfl⟩

theorem endsTest_cons {c : Char} (hends : endsTest c = true) (text : List Char) : EndsTest (c :: text) :=
  ⟨[], c, text, List.forall_mem_nil _, hends, rfl⟩

/-! ### Steps of a chain -/

namespace Scan

/-- A chain looks past blanks first, so that it does not matter whether they have been skipped. -/
theorem run_filterChain_congr (hskip : skipBlank.run ⟨length, rest, 0⟩ = skipBlank.run ⟨length, more, 0⟩)
    (left : Filter) :
    (filterChain compile (fuel + 1) left).run ⟨⟨length, rest, 0⟩, refers⟩ =
      (filterChain compile (fuel + 1) left).run ⟨⟨length, more, 0⟩, refers⟩ := by
  simp only [filterChain, EStateM.run_bind, run_parse, hskip]

theorem run_connective? (connective : Connective) :
    connective?.run ⟨length, connective.chars ++ rest, 0⟩ = .ok (some connective) ⟨length, rest, 0⟩ := by
  cases connective <;> simp [connective?, Connective.chars]

theorem run_connective?_none {c : Char} (hc : c ≠ '&' ∧ c ≠ '|') :
    connective?.run ⟨length, c :: rest, 0⟩ = .ok none ⟨length, c :: rest, 0⟩ := by
  simp only [connective?, EStateM.run_bind, run_rest]
  split
  · next heq => exact absurd (List.cons.inj heq).1 hc.1
  · next heq => exact absurd (List.cons.inj heq).1 hc.2
  · rfl

theorem run_filterChain_stop {c : Char} (hblank : Text.isBlank c = false) (hc : c ≠ '&' ∧ c ≠ '|') (left : Filter) :
    (filterChain compile (fuel + 1) left).run ⟨⟨length, c :: rest, 0⟩, refers⟩ =
      .ok left ⟨⟨length, c :: rest, 0⟩, refers⟩ := by
  have hskip : skipBlank.run ⟨length, c :: rest, 0⟩ = .ok () ⟨length, c :: rest, 0⟩ :=
    run_skipBlank (head?_cons_forall hblank)
  simp [filterChain, hskip, run_connective?_none hc]

theorem run_filterChain_connective (connective : Connective) (left : Filter) :
    (filterChain compile (fuel + 1) left).run ⟨⟨length, style.gap ++ (connective.chars ++ rest), 0⟩, refers⟩ =
      (filterTerm compile fuel >>= fun right => filterChain compile fuel (.group connective left right)).run
        ⟨⟨length, rest, 0⟩, refers⟩ := by
  have hskip : skipBlank.run ⟨length, style.gap ++ (connective.chars ++ rest), 0⟩ =
      .ok () ⟨length, connective.chars ++ rest, 0⟩ :=
    run_skipBlank_gap style length (by cases connective <;> exact head?_cons_forall (by decide))
  simp [filterChain, hskip, run_connective?]

/-! ### Terms -/

theorem run_filterTerm_append {blank : List Char} (hblank : ∀ c ∈ blank, Text.isBlank c = true)
    (hrest : ∀ c ∈ rest.head?, Text.isBlank c = false) :
    (filterTerm compile (fuel + 1)).run ⟨⟨length, blank ++ rest, 0⟩, refers⟩ =
      (filterTerm compile (fuel + 1)).run ⟨⟨length, rest, 0⟩, refers⟩ := by
  simp only [filterTerm, EStateM.run_bind, run_parse, run_skipBlank_append length hblank hrest, run_skipBlank hrest]

theorem run_filterTerm_predicate {c : Char} (hblank : Text.isBlank c = false) (hc : c ≠ '(') :
    (filterTerm compile (fuel + 1)).run ⟨⟨length, c :: rest, 0⟩, refers⟩ =
      (predicate compile).run ⟨⟨length, c :: rest, 0⟩, refers⟩ := by
  have hskip : skipBlank.run ⟨length, c :: rest, 0⟩ = .ok () ⟨length, c :: rest, 0⟩ :=
    run_skipBlank (head?_cons_forall hblank)
  have heat : (eat '(').run ⟨length, c :: rest, 0⟩ = .ok false ⟨length, c :: rest, 0⟩ :=
    run_eat_of_head?_ne (by simpa using hc)
  simp [filterTerm, hskip, heat]

theorem run_filterTerm_parenthesis :
    (filterTerm compile (fuel + 1)).run ⟨⟨length, '(' :: rest, 0⟩, refers⟩ =
      (do
        let inner ← Scan.filter compile fuel
        skipBlank
        expect ')'
        return inner : Parse Filter).run ⟨⟨length, rest, 0⟩, refers⟩ := by
  have hskip : skipBlank.run ⟨length, '(' :: rest, 0⟩ = .ok () ⟨length, '(' :: rest, 0⟩ := rfl
  simp [filterTerm, hskip, run_eat_self]

theorem run_filter_stop {s : Parser} {c : Char} (hblank : Text.isBlank c = false) (hc : c ≠ '&' ∧ c ≠ '|')
    (hterm : (filterTerm compile (fuel + 1)).run s = .ok filter ⟨⟨length, c :: rest, 0⟩, refers⟩) :
    (Scan.filter compile (fuel + 2)).run s = .ok filter ⟨⟨length, c :: rest, 0⟩, refers⟩ := by
  rw [Scan.filter, EStateM.run_bind, hterm]
  exact run_filterChain_stop hblank hc filter

/-- A test as a term, perhaps behind blanks. -/
theorem run_filterTerm_test (hwritable : filter.Writable) (hleaf : filter.isGroup = false) (style : FilterStyle)
    (compile : String → Except Fault Path) (length fuel : Nat) (refers : Bool) {blank : List Char}
    (hblank : ∀ c ∈ blank, Text.isBlank c = true) (hmore : EndsTest more) :
    ∃ rest, skipBlank.run ⟨length, rest, 0⟩ = skipBlank.run ⟨length, more, 0⟩ ∧
      (filterTerm compile (fuel + 1)).run ⟨⟨length, blank ++ (filter.write style ++ more), 0⟩, refers⟩ =
        .ok filter ⟨⟨length, rest, 0⟩, refers⟩ := by
  obtain ⟨rest, hsame, hread⟩ := hwritable.run_predicate hleaf style compile length refers hmore
  obtain ⟨c, tail, htext, hstarts⟩ := hwritable.exists_write hleaf style
  obtain ⟨hnonblank, hparenthesis⟩ := startsTest_facts hstarts
  refine ⟨rest, hsame, ?_⟩
  rw [← hread, htext, List.cons_append, run_filterTerm_append hblank (head?_cons_forall hnonblank)]
  exact run_filterTerm_predicate hnonblank hparenthesis

end Scan

/-- The written filter is read as the start of a chain, which what follows it goes on with. -/
def Filter.StartsChain (style : FilterStyle) (filter : Filter) : Prop :=
  ∀ (compile : String → Except Fault Path) (length : Nat) (refers : Bool) {fuel : Nat} {more : List Char},
    EndsTest more → 2 * (filter.write style ++ more).length + 2 ≤ fuel →
      ∃ left, 2 * more.length < left ∧
        (Scan.filter compile fuel).run ⟨⟨length, filter.write style ++ more, 0⟩, refers⟩ =
          (Scan.filterChain compile left filter).run ⟨⟨length, more, 0⟩, refers⟩

/-- A filter in parentheses as a term, perhaps behind blanks. -/
theorem Filter.StartsChain.run_filterTerm (hstarts : filter.StartsChain style) {blank : List Char}
    (hblank : ∀ c ∈ blank, Text.isBlank c = true)
    (hfuel : 2 * (filter.write style ++ ')' :: rest).length + 2 ≤ fuel) :
    (Scan.filterTerm compile (fuel + 1)).run
        ⟨⟨length, blank ++ '(' :: (filter.write style ++ ')' :: rest), 0⟩, refers⟩ =
      .ok filter ⟨⟨length, rest, 0⟩, refers⟩ := by
  obtain ⟨left, hleft, hread⟩ := hstarts compile length refers (endsTest_cons (by decide) rest) hfuel
  obtain ⟨left, rfl⟩ := exists_eq_succ_of_lt hleft
  rw [Scan.run_filterChain_stop (by decide) (by decide)] at hread
  have hafter : Scan.skipBlank.run ⟨length, ')' :: rest, 0⟩ = .ok () ⟨length, ')' :: rest, 0⟩ := rfl
  rw [Scan.run_filterTerm_append hblank (head?_cons_forall (by decide)), Scan.run_filterTerm_parenthesis]
  simp [hread, hafter, Scan.run_expect]

theorem Filter.Writable.startsChain_test (hwritable : filter.Writable) (hleaf : filter.isGroup = false) :
    filter.StartsChain style := by
  intro compile length refers fuel more hmore hfuel
  obtain ⟨fuel, rfl⟩ : ∃ n, fuel = n + 2 := ⟨fuel - 2, by omega⟩
  obtain ⟨rest, hsame, hread⟩ :=
    Scan.run_filterTerm_test hwritable hleaf style compile length fuel refers (List.forall_mem_nil _) hmore
  rw [List.length_append] at hfuel
  refine ⟨fuel + 1, by omega, ?_⟩
  calc
    _ = (Scan.filterChain compile (fuel + 1) filter).run ⟨⟨length, rest, 0⟩, refers⟩ := by
      rw [List.nil_append] at hread
      rw [Scan.filter, EStateM.run_bind, hread]
    _ = (Scan.filterChain compile (fuel + 1) filter).run ⟨⟨length, more, 0⟩, refers⟩ :=
      Scan.run_filterChain_congr hsame filter

/-- The term to the right of a connective, in parentheses exactly if it is a group. -/
theorem Filter.StartsChain.run_enclosed (hstarts : filter.StartsChain style) (hwritable : filter.Writable)
    (compile : String → Except Fault Path) (length : Nat) (refers : Bool) (hmore : EndsTest more)
    (hfuel : 2 * (enclose filter.isGroup (filter.write style) ++ more).length < fuel) :
    ∃ rest, Scan.skipBlank.run ⟨length, rest, 0⟩ = Scan.skipBlank.run ⟨length, more, 0⟩ ∧
      (Scan.filterTerm compile fuel).run
          ⟨⟨length, style.gap ++ (enclose filter.isGroup (filter.write style) ++ more), 0⟩, refers⟩ =
        .ok filter ⟨⟨length, rest, 0⟩, refers⟩ := by
  obtain ⟨fuel, rfl⟩ := exists_eq_succ_of_lt hfuel
  cases hgroup : filter.isGroup with
  | false => exact Scan.run_filterTerm_test hwritable hgroup style compile length fuel refers style.isBlank_gap hmore
  | true =>
      have htext : enclose true (filter.write style) ++ more = '(' :: (filter.write style ++ ')' :: more) := by
        simp [enclose]
      rw [hgroup, htext, List.length_cons] at hfuel
      rw [htext]
      exact ⟨more, rfl, hstarts.run_filterTerm style.isBlank_gap (by omega)⟩

theorem Filter.Writable.startsChain (hwritable : filter.Writable) : filter.StartsChain style := by
  -- A chain takes one unit of fuel for each connective and two for each parenthesis, all of which are written out.
  induction hwritable with
  | @group left right connective hleft hright ihleft ihright =>
      intro compile length refers fuel more hmore hfuel
      obtain ⟨c, tail, hconnective, hends⟩ : ∃ c tail, connective.chars = c :: tail ∧ endsTest c = true := by
        cases connective <;> exact ⟨_, _, rfl, by decide⟩
      have htext : (Filter.group connective left right).write style ++ more = left.write style ++
          (style.gap ++ (connective.chars ++ (style.gap ++ (enclose right.isGroup (right.write style) ++ more)))) := by
        simp [write]
      rw [htext] at hfuel ⊢
      have hmiddle : EndsTest
          (style.gap ++ (connective.chars ++ (style.gap ++ (enclose right.isGroup (right.write style) ++ more)))) := by
        rw [hconnective]
        exact endsTest_gap style hends _
      obtain ⟨fuel, hbound, hread⟩ := ihleft compile length refers hmiddle hfuel
      obtain ⟨fuel, rfl⟩ := exists_eq_succ_of_lt hbound
      simp only [List.length_append] at hbound
      have hterm : 2 * (enclose right.isGroup (right.write style) ++ more).length < fuel := by
        rw [List.length_append]
        have hlength : connective.chars.length = tail.length + 1 := by rw [hconnective, List.length_cons]
        omega
      obtain ⟨rest, hsame, hright⟩ := ihright.run_enclosed hright compile length refers hmore hterm
      rw [List.length_append] at hterm
      obtain ⟨fuel, rfl⟩ := exists_eq_succ_of_lt hterm
      refine ⟨fuel + 1, by omega, ?_⟩
      calc
        _ = (Scan.filterChain compile (fuel + 1 + 1) left).run ⟨⟨length, style.gap ++ (connective.chars ++
              (style.gap ++ (enclose right.isGroup (right.write style) ++ more))), 0⟩, refers⟩ := hread
        _ = (Scan.filterTerm compile (fuel + 1) >>= fun right =>
              Scan.filterChain compile (fuel + 1) (.group connective left right)).run
            ⟨⟨length, style.gap ++ (enclose right.isGroup (right.write style) ++ more), 0⟩, refers⟩ :=
          Scan.run_filterChain_connective connective left
        _ = (Scan.filterChain compile (fuel + 1) (.group connective left right)).run ⟨⟨length, rest, 0⟩, refers⟩ := by
          rw [EStateM.run_bind, hright]
        _ = (Scan.filterChain compile (fuel + 1) (.group connective left right)).run ⟨⟨length, more, 0⟩, refers⟩ :=
          Scan.run_filterChain_congr hsame _
  | present hoperand => exact startsChain_test (.present hoperand) rfl
  | absent hoperand => exact startsChain_test (.absent hoperand) rfl
  | integer hoperand test hvalue => exact startsChain_test (.integer hoperand test hvalue) rfl
  | decimal hoperand test hvalue hscale => exact startsChain_test (.decimal hoperand test hvalue hscale) rfl
  | string hoperand test value => exact startsChain_test (.string hoperand test value) rfl
  | bool hoperand value equal => exact startsChain_test (.bool hoperand value equal) rfl
  | integers hoperand hlength hvalues negated => exact startsChain_test (.integers hoperand hlength hvalues negated) rfl
  | strings hoperand hlength negated => exact startsChain_test (.strings hoperand hlength negated) rfl
  | nullableIntegers hoperand hlength hnull hvalues negated =>
      exact startsChain_test (.nullableIntegers hoperand hlength hnull hvalues negated) rfl
  | between hoperand hlow hhigh negated => exact startsChain_test (.between hoperand hlow hhigh negated) rfl

/-! ### Whole paths -/

theorem Scan.run_filterSegment (style : FilterStyle) (hwritable : filter.Writable) :
    (filterSegment compile).run ⟨⟨length, '(' :: (filter.write style ++ ')' :: ']' :: rest), 0⟩, refers⟩ =
      .ok (.filter filter) ⟨⟨length, ']' :: rest, 0⟩, refers⟩ := by
  have hterm : ∀ {fuel}, 2 * (filter.write style ++ ')' :: ']' :: rest).length + 2 ≤ fuel →
      (filterTerm compile (fuel + 1)).run ⟨⟨length, '(' :: (filter.write style ++ ')' :: ']' :: rest), 0⟩, refers⟩ =
        .ok filter ⟨⟨length, ']' :: rest, 0⟩, refers⟩ :=
    hwritable.startsChain.run_filterTerm (List.forall_mem_nil _)
  generalize filter.write style ++ ')' :: ']' :: rest = text at hterm ⊢
  have hread := hterm (Nat.le_refl _)
  simp only [filterSegment, Scan.filter, EStateM.run_bind, EStateM.run_get, List.length_cons, Nat.mul_add, hread]
  rw [run_filterChain_stop (by decide) (by decide)]
  rfl

theorem reads_filter (style : FilterStyle) (hwritable : filter.Writable) :
    Reads ('[' :: ('?' :: '(' :: (filter.write style ++ [')']) ++ [']'])) (.filter filter) rest := by
  have hblank : ∀ c ∈ ('?' :: '(' :: (filter.write style ++ [')']) ++ ']' :: rest).head?, Text.isBlank c = false :=
    head?_cons_forall (by decide)
  refine reads_bracket _ hblank fun compile length refers => ?_
  have htext : '?' :: '(' :: (filter.write style ++ [')']) ++ ']' :: rest =
      '?' :: '(' :: (filter.write style ++ ')' :: ']' :: rest) := by simp
  rw [htext]
  simp [Scan.bracketContent, Scan.run_filterSegment style hwritable]

/-- **Written filters are read back.** A written filter in brackets compiles to one segment with that filter. -/
theorem Path.compile_pathText (style : FilterStyle) (hwritable : filter.Writable) (dropNulls : Bool) :
    Path.compile (filter.pathText style) dropNulls =
      .ok (.mk (filter.pathText style) [.filter filter] false dropNulls) := by
  have htext : filter.pathText style =
      String.ofList ('$' :: ('[' :: ('?' :: '(' :: (filter.write style ++ [')']) ++ [']']) ++ [])) := by
    rw [← String.toList_inj]
    simp [Filter.pathText]
  rw [htext]
  exact (PathText.cons (by decide) (reads_filter style hwritable) .nil).compile_dollar dropNulls

def plainStyle : FilterStyle where
  quote := '\''
  gap := [' ']
  anchored := false
  isQuote_quote := by decide
  gap_ne_nil := List.cons_ne_nil _ _
  isBlank_gap := List.forall_mem_singleton.mpr (by decide)

/-- Two groups, of which only the right one stands in parentheses. -/
theorem Path.compile_pathText_groups :
    Path.compile "$[?(a > -1 && size() in () || (b not in (7, null) && c != 'it\\'s'))]" true =
      .ok (.mk "$[?(a > -1 && size() in () || (b not in (7, null) && c != 'it\\'s'))]"
        [.filter (.group .or (.group .and (.integer (.property "a") .gt (-1)) (.integers .size [] false))
          (.group .and (.nullableIntegers (.property "b") [some 7, none] true)
            (.string (.property "c") .ne "it's")))] false true) := by
  have hdigits : intText (-1) = ['-', '1'] ∧ intText 7 = ['7'] := by
    refine ⟨?_, ?_⟩ <;> rw [intText, toList_toString_int] <;> decide
  have hleft : Filter.Writable (.group .and (.integer (.property "a") .gt (-1)) (.integers .size [] false)) :=
    .group .and (.integer (by decide) .gt (by decide)) (.integers (by decide) (by decide) (by decide) false)
  have hright : Filter.Writable (.group .and (.nullableIntegers (.property "b") [some 7, none] true)
      (.string (.property "c") .ne "it's")) :=
    .group .and (.nullableIntegers (by decide) (by decide) (by decide) (by simp; decide) true)
      (.string (by decide) .ne "it's")
  have hcompile := compile_pathText plainStyle (.group .or hleft hright) true
  simp only [Filter.pathText, Filter.write, FilterStyle.test, List.map_cons, List.map_nil, Option.map_some,
    Option.map_none, Option.getD_some, Option.getD_none, hdigits] at hcompile
  exact hcompile

end TreeQuery
