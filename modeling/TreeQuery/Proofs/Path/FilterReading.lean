import TreeQuery.Proofs.Path.FilterText

/-!
# Reading operands, operators and lists

The parts of a written test, each read in front of anything that ends a word. A list is read element by element and
then taken for the narrowest filter its elements allow.
-/

namespace TreeQuery

variable {style : FilterStyle} {rest text : List Char} {length : Nat}

namespace FilterStyle

theorem exists_gap (style : FilterStyle) : ∃ c tail, style.gap = c :: tail ∧ Text.isBlank c = true := by
  obtain ⟨c, tail, hgap⟩ := List.exists_cons_of_ne_nil style.gap_ne_nil
  exact ⟨c, tail, hgap, style.isBlank_gap c (by simp [hgap])⟩

theorem anchor_eq (style : FilterStyle) : style.anchor = [] ∨ style.anchor = ['@', '.'] := by
  rw [anchor]
  split
  · exact .inr rfl
  · exact .inl rfl

theorem endsWord_gap (style : FilterStyle) (text : List Char) : EndsWord (style.gap ++ text) := by
  obtain ⟨c, tail, hgap, hblank⟩ := style.exists_gap
  rw [hgap, List.cons_append, endsWord_cons, endsWord, hblank]
  rfl

end FilterStyle

namespace Scan

theorem run_skipBlank_gap (style : FilterStyle) (length : Nat) (hrest : ∀ c ∈ rest.head?, Text.isBlank c = false) :
    skipBlank.run ⟨length, style.gap ++ rest, 0⟩ = .ok () ⟨length, rest, 0⟩ :=
  run_skipBlank_append length style.isBlank_gap hrest

theorem run_eat_cons (expected c : Char) :
    (eat expected).run ⟨length, c :: rest, 0⟩ =
      if c = expected then .ok true ⟨length, rest, 0⟩ else .ok false ⟨length, c :: rest, 0⟩ := by
  split
  · next heq => rw [heq, run_eat_self]
  · next hne => exact run_eat_of_head?_ne (by simpa using hne)

/-! ### Operands -/

theorem head?_escapeName_ne {name : List Char} (hne : name ≠ []) : (escapeName name ++ rest).head? ≠ some '@' := by
  obtain ⟨c, tail, hescape, hstarts⟩ := exists_escapeName hne
  rw [hescape]
  intro hhead
  rw [Option.some.inj hhead] at hstarts
  exact absurd hstarts (by decide)

theorem run_operand_anchor (style : FilterStyle) (htext : text.head? ≠ some '@') :
    Scan.operand.run ⟨length, style.anchor ++ text, 0⟩ = Scan.operand.run ⟨length, text, 0⟩ := by
  have heat : (eat '@').run ⟨length, text, 0⟩ = .ok false ⟨length, text, 0⟩ := run_eat_of_head?_ne htext
  rcases style.anchor_eq with hanchor | hanchor <;> rw [hanchor]
  · rfl
  · simp [Scan.operand, heat, run_eat_cons, run_expect]

theorem run_operand_name {name : List Char} (hne : name ≠ []) (hrest : EndsWord rest) :
    Scan.operand.run ⟨length, escapeName name ++ rest, 0⟩ =
      .ok (.property (String.ofList name)) ⟨length, rest, 0⟩ := by
  have hparenthesis := hrest.head?_ne (show endsWord '(' = false by decide)
  simp [Scan.operand, run_eat_of_head?_ne (head?_escapeName_ne hne), run_name length hne hrest.endsName, hparenthesis]

theorem run_operand_call {name : List Char} {found : Operand} (hne : name ≠ []) (hplain : escapeName name = name)
    (hfound : PathFunction.ofName? (String.ofList name) = some .size ∧ found = .size ∨
      PathFunction.ofName? (String.ofList name) = some .kind ∧ found = .kind) :
    Scan.operand.run ⟨length, name ++ '(' :: ')' :: rest, 0⟩ = .ok found ⟨length, rest, 0⟩ := by
  have hat : (eat '@').run ⟨length, escapeName name ++ '(' :: ')' :: rest, 0⟩ =
      .ok false ⟨length, escapeName name ++ '(' :: ')' :: rest, 0⟩ := run_eat_of_head?_ne (head?_escapeName_ne hne)
  have hname := run_name length hne (show EndsName ('(' :: ')' :: rest) from endsName_cons.mpr (by decide))
  rw [hplain] at hat hname
  rcases hfound with ⟨hfunction, rfl⟩ | ⟨hfunction, rfl⟩ <;>
    simp [Scan.operand, hat, hname, run_parentheses, hfunction]

theorem run_operand {operand : Operand} (hoperand : operand.IsNamed) (hrest : EndsWord rest) :
    Scan.operand.run ⟨length, style.operand operand ++ rest, 0⟩ = .ok operand ⟨length, rest, 0⟩ := by
  cases operand with
  | property name =>
      obtain ⟨hname, hhash⟩ := hoperand
      have hne : name.text.toList ≠ [] := fun hnil => hname (String.toList_eq_nil_iff.mp hnil)
      rw [FilterStyle.operand, List.append_assoc, run_operand_anchor style (head?_escapeName_ne hne),
        run_operand_name hne hrest, String.ofList_toList, hhash]
  | size =>
      rw [FilterStyle.operand, List.append_assoc, run_operand_anchor style (by simp)]
      exact run_operand_call (List.cons_ne_nil 's' ['i', 'z', 'e']) (by decide) (.inl ⟨rfl, rfl⟩)
  | kind =>
      rw [FilterStyle.operand, List.append_assoc, run_operand_anchor style (by simp)]
      exact run_operand_call (List.cons_ne_nil 't' ['y', 'p', 'e']) (by decide) (.inr ⟨rfl, rfl⟩)

/-! ### Operators -/

theorem run_operator_chars (test : Comparison) (hrest : EndsWord rest) :
    operator.run ⟨length, test.chars ++ rest, 0⟩ = .ok (.compare test) ⟨length, rest, 0⟩ := by
  have hequals : (eat '=').run ⟨length, rest, 0⟩ = .ok false ⟨length, rest, 0⟩ :=
    run_eat_of_head?_ne (hrest.head?_ne (by decide))
  -- Steps that hold by definition would make the kernel run the scanner to check them.
  cases test <;> simp -implicitDefEqProofs [operator, Comparison.chars, run_eat_cons, run_expect, hequals]

theorem run_operator_word {c : Char} (hc : c ≠ '=' ∧ c ≠ '!' ∧ c ≠ '<' ∧ c ≠ '>') :
    operator.run ⟨length, c :: text, 0⟩ = wordOperator.run ⟨length, c :: text, 0⟩ := by
  simp [operator, run_eat_cons, hc]

/-- An operator in words is read on its own, or behind `not` and a gap. -/
theorem run_operator_negatable {c : Char} {word : List Char} {found : Bool → Operator}
    (hc : c ≠ '=' ∧ c ≠ '!' ∧ c ≠ '<' ∧ c ≠ '>')
    (hplain : wordOperator.run ⟨length, c :: (word ++ rest), 0⟩ = .ok (found false) ⟨length, rest, 0⟩)
    (hnegated : negatedOperator.run ⟨length, style.gap ++ c :: (word ++ rest), 0⟩ = .ok (found true) ⟨length, rest, 0⟩)
    (negated : Bool) :
    operator.run ⟨length, style.negatable negated (c :: word) ++ rest, 0⟩ = .ok (found negated) ⟨length, rest, 0⟩ := by
  cases negated with
  | false =>
      have htext : style.negatable false (c :: word) ++ rest = c :: (word ++ rest) := rfl
      rw [htext, run_operator_word hc, hplain]
  | true =>
      have htext : style.negatable true (c :: word) ++ rest = 'n' :: 'o' :: 't' :: (style.gap ++ c :: (word ++ rest)) := by
        simp [FilterStyle.negatable]
      have hnot : (eatKeyword "not").run ⟨length, 'n' :: 'o' :: 't' :: (style.gap ++ c :: (word ++ rest)), 0⟩ =
          .ok true ⟨length, style.gap ++ c :: (word ++ rest), 0⟩ :=
        run_eatKeyword rfl (style.endsWord_gap _)
      rw [htext, run_operator_word (by decide)]
      simp [wordOperator, hnot, hnegated]

theorem run_operator_in (negated : Bool) (hrest : EndsWord rest) :
    operator.run ⟨length, style.negatable negated ['i', 'n'] ++ rest, 0⟩ = .ok (.isIn negated) ⟨length, rest, 0⟩ := by
  have hothers : ∀ word ∈ ["not", "nin", "like", "rlike"],
      (eatKeyword word).run ⟨length, 'i' :: 'n' :: rest, 0⟩ = .ok false ⟨length, 'i' :: 'n' :: rest, 0⟩ :=
    run_eatKeyword_of_ne (by decide)
  have hin : (eatKeyword "in").run ⟨length, 'i' :: 'n' :: rest, 0⟩ = .ok true ⟨length, rest, 0⟩ :=
    run_eatKeyword rfl hrest
  have hgap : skipBlank.run ⟨length, style.gap ++ 'i' :: 'n' :: rest, 0⟩ = .ok () ⟨length, 'i' :: 'n' :: rest, 0⟩ :=
    run_skipBlank_gap style length (head?_cons_forall (by decide))
  simp only [List.forall_mem_cons] at hothers
  refine run_operator_negatable (by decide) ?_ ?_ negated
  · simp [wordOperator, hothers, hin]
  · simp [negatedOperator, hgap, hothers, hin]

theorem run_operator_between (negated : Bool) (hrest : EndsWord rest) :
    operator.run ⟨length, style.negatable negated ['b', 'e', 't', 'w', 'e', 'e', 'n'] ++ rest, 0⟩ =
      .ok (.between negated) ⟨length, rest, 0⟩ := by
  generalize htail : ['e', 't', 'w', 'e', 'e', 'n'] ++ rest = tail
  have hothers : ∀ word ∈ ["not", "nin", "like", "rlike", "in"],
      (eatKeyword word).run ⟨length, 'b' :: tail, 0⟩ = .ok false ⟨length, 'b' :: tail, 0⟩ :=
    run_eatKeyword_of_ne (by decide)
  have hbetween : (eatKeyword "between").run ⟨length, 'b' :: tail, 0⟩ = .ok true ⟨length, rest, 0⟩ :=
    run_eatKeyword (congrArg ('b' :: ·) htail.symm) hrest
  have hgap : skipBlank.run ⟨length, style.gap ++ 'b' :: tail, 0⟩ = .ok () ⟨length, 'b' :: tail, 0⟩ :=
    run_skipBlank_gap style length (head?_cons_forall (by decide))
  simp only [List.forall_mem_cons] at hothers
  refine run_operator_negatable (by decide) ?_ ?_ negated <;> rw [htail]
  · simp [wordOperator, hothers, hbetween]
  · simp [negatedOperator, hgap, hothers, hbetween]

/-! ### Lists -/

end Scan

/-- A text that is read as an element of a list wherever the element may end. -/
structure ReadsListed (text : List Char) (item : Listed) : Prop where
  run : ∀ {rest : List Char} (length : Nat), EndsWord rest →
    Scan.listed.run ⟨length, text ++ rest, 0⟩ = .ok item ⟨length, rest, 0⟩
  head : ∃ c tail, text = c :: tail ∧ Text.isBlank c = false ∧ c ≠ ')'

theorem exists_intText (value : Int) : ∃ c tail, intText value = c :: tail ∧ isIntChar c = true := by
  obtain ⟨c, tail, htext⟩ := List.exists_cons_of_ne_nil (intText_ne_nil value)
  have hmem : c ∈ intText value := by simp [htext]
  exact ⟨c, tail, htext, isIntChar_of_mem_intText c hmem⟩

theorem exists_toChars_head (value : Decimal) : ∃ c tail, value.toChars = c :: tail ∧ isIntChar c = true := by
  obtain ⟨whole, fraction, htext, hplaced⟩ := Decimal.exists_toChars value
  obtain ⟨c, tail, hhead, hc⟩ := hplaced.exists_head
  rw [htext, hhead]
  split
  · exact ⟨'-', _, rfl, rfl⟩
  · exact ⟨c, tail, rfl, by rw [isIntChar, hc, Bool.true_or]⟩

theorem isIntChar_facts {c : Char} (hc : isIntChar c = true) :
    startsNumber c = true ∧ isQuote c = false ∧ Text.isBlank c = false ∧ c ≠ ')' := by
  have hlist : isListChar c = true := by simp [isListChar, hc]
  obtain ⟨hraw, -, hblank, -, -, hquote, -⟩ := isListChar_facts hlist
  refine ⟨?_, hquote, hblank, ?_⟩
  · rw [isIntChar] at hc
    rw [startsNumber, hc, Bool.true_or]
  · rintro rfl
    exact absurd hraw (by decide)

/-- Both kinds of numbers are written without blanks in front. -/
theorem head?_number_nonblank (htext : ∃ c tail, text = c :: tail ∧ isIntChar c = true) (rest : List Char) :
    ∀ c ∈ (text ++ rest).head?, Text.isBlank c = false := by
  obtain ⟨c, tail, rfl, hc⟩ := htext
  exact head?_cons_forall (isIntChar_facts hc).2.2.1

theorem readsListed_intText {value : Int} (hvalue : InWord value) :
    ReadsListed (intText value) (.number (.integer value)) := by
  obtain ⟨c, tail, htext, hc⟩ := exists_intText value
  obtain ⟨hnumber, hquote, hblank, hclose⟩ := isIntChar_facts hc
  refine ⟨fun length hrest => ?_, c, tail, htext, hblank, hclose⟩
  have hread := Scan.run_number_intText length hvalue hrest
  rw [htext, List.cons_append] at hread ⊢
  simp [Scan.listed, hquote, hnumber, hread]

theorem run_quoted (style : FilterStyle) (length : Nat) (value : String) (rest : List Char) :
    Scan.string.run ⟨length, style.quoted value ++ rest, 0⟩ = .ok value ⟨length, rest, 0⟩ :=
  Scan.run_quotedName (show isQuote (style.quote, value).1 = true from style.isQuote_quote)

theorem readsListed_quoted (style : FilterStyle) (value : String) :
    ReadsListed (style.quoted value) (.string value) := by
  obtain ⟨hblank, -, -⟩ := isQuote_facts style.isQuote_quote
  refine ⟨fun {rest} length _ => ?_, _, _, rfl, hblank, ?_⟩
  · have hread := run_quoted style length value rest
    have hhead : (style.quoted value ++ rest).head? = some style.quote := rfl
    simp [Scan.listed, hhead, style.isQuote_quote, hread]
  · intro hclose
    have hquote := style.isQuote_quote
    rw [hclose] at hquote
    exact absurd hquote (by decide)

theorem readsListed_null : ReadsListed nullText .null := by
  refine ⟨fun {rest} length hrest => ?_, _, _, rfl, by decide, by decide⟩
  have hnull : (Scan.eatKeyword "null").run ⟨length, 'n' :: 'u' :: 'l' :: 'l' :: rest, 0⟩ =
      .ok true ⟨length, rest, 0⟩ := Scan.run_eatKeyword rfl hrest
  have htext : nullText ++ rest = 'n' :: 'u' :: 'l' :: 'l' :: rest := rfl
  have hword : isQuote 'n' = false ∧ startsNumber 'n' = false := by decide
  rw [htext]
  simp [Scan.listed, Scan.listedKeyword, hword, hnull]

section Lists

variable {α : Type} {write : α → List Char} {read : α → Listed}

theorem ReadsListed.head?_blank {item : Listed} (hreads : ReadsListed text item) (rest : List Char) :
    ∀ c ∈ (text ++ rest).head?, Text.isBlank c = false := by
  obtain ⟨c, tail, rfl, hblank, -⟩ := hreads.head
  exact head?_cons_forall hblank

theorem length_lt_listTail (style : FilterStyle) (texts : List (List Char)) :
    texts.length < (style.listTail texts).length := by
  induction texts with
  | nil => exact Nat.one_pos
  | cons text texts ih =>
      simp only [FilterStyle.listTail, List.length_cons, List.length_append]
      omega

namespace Scan

theorem run_listItems {blank : List Char} (hblank : ∀ c ∈ blank, Text.isBlank c = true) {first : α} {others : List α}
    (hreads : ∀ value ∈ first :: others, ReadsListed (write value) (read value)) {fuel : Nat}
    (hfuel : others.length < fuel) :
    (listItems fuel).run ⟨length, blank ++ (write first ++ (style.listTail (others.map write) ++ rest)), 0⟩ =
      .ok ((first :: others).map read) ⟨length, rest, 0⟩ := by
  induction others generalizing first fuel blank with
  | nil =>
      obtain ⟨fuel, rfl⟩ := exists_eq_succ_of_lt hfuel
      have hfirst := hreads first (by simp)
      have hends : EndsWord (')' :: rest) := endsWord_cons.mpr (by decide)
      have hskip := run_skipBlank_append length hblank (hfirst.head?_blank (')' :: rest))
      have hafter : skipBlank.run ⟨length, ')' :: rest, 0⟩ = .ok () ⟨length, ')' :: rest, 0⟩ := rfl
      have htail : style.listTail (List.map write []) ++ rest = ')' :: rest := rfl
      rw [htail]
      simp [listItems, hskip, hfirst.run length hends, hafter, run_eat_cons, run_expect]
  | cons next others ih =>
      obtain ⟨fuel, rfl⟩ := exists_eq_succ_of_lt hfuel
      obtain ⟨hfirst, hothers⟩ := List.forall_mem_cons.mp hreads
      have hrest := ih style.isBlank_gap hothers (Nat.lt_of_succ_lt_succ hfuel)
      generalize htext : style.gap ++ (write next ++ (style.listTail (others.map write) ++ rest)) = more at hrest
      have hends : EndsWord (',' :: more) := endsWord_cons.mpr (by decide)
      have hskip := run_skipBlank_append length hblank (hfirst.head?_blank (',' :: more))
      have hafter : skipBlank.run ⟨length, ',' :: more, 0⟩ = .ok () ⟨length, ',' :: more, 0⟩ := rfl
      have htail : style.listTail ((next :: others).map write) ++ rest = ',' :: more := by
        rw [List.map_cons, FilterStyle.listTail, List.cons_append, ← htext]
        simp
      rw [htail]
      simp [listItems, hskip, hfirst.run length hends, hafter, run_eat_cons, hrest]

/-- A list of values is read as the filter that its elements make. -/
theorem run_inList {values : List α} (hreads : ∀ value ∈ values, ReadsListed (write value) (read value))
    {operand : Operand} {negated : Bool} {found : Filter}
    (hfound : Filter.ofList? operand negated (values.map read) = some found) :
    (inList operand negated).run ⟨length, style.list (values.map write) ++ rest, 0⟩ = .ok found ⟨length, rest, 0⟩ := by
  cases values with
  | nil =>
      have hafter : skipBlank.run ⟨length, ')' :: rest, 0⟩ = .ok () ⟨length, ')' :: rest, 0⟩ := rfl
      have htext : style.list (List.map write []) ++ rest = '(' :: ')' :: rest := rfl
      rw [List.map_nil] at hfound
      rw [htext]
      simp [inList, listFilter, run_expect, hafter, run_eat_cons, hfound]
  | cons first others =>
      have hfirst := hreads first (by simp)
      have hfuel : others.length < (write first ++ (style.listTail (others.map write) ++ rest)).length + 1 := by
        have hlength := length_lt_listTail style (others.map write)
        rw [List.length_map] at hlength
        rw [List.length_append, List.length_append]
        omega
      have hitems : (listItems _).run ⟨length, write first ++ (style.listTail (others.map write) ++ rest), 0⟩ = _ :=
        run_listItems (List.forall_mem_nil _) hreads hfuel
      have hskip : skipBlank.run ⟨length, write first ++ (style.listTail (others.map write) ++ rest), 0⟩ =
          .ok () ⟨length, write first ++ (style.listTail (others.map write) ++ rest), 0⟩ :=
        run_skipBlank (hfirst.head?_blank _)
      have hclose : (eat ')').run ⟨length, write first ++ (style.listTail (others.map write) ++ rest), 0⟩ =
          .ok false ⟨length, write first ++ (style.listTail (others.map write) ++ rest), 0⟩ := by
        obtain ⟨c, tail, hhead, -, hclose⟩ := hfirst.head
        exact run_eat_of_head?_ne (by simpa [hhead] using hclose)
      have htext : style.list ((first :: others).map write) ++ rest =
          '(' :: (write first ++ (style.listTail (others.map write) ++ rest)) := by
        rw [List.map_cons, FilterStyle.list, List.cons_append, List.append_assoc]
      generalize write first ++ (style.listTail (others.map write) ++ rest) = more at htext hitems hskip hclose
      rw [List.map_cons] at hfound hitems
      rw [htext]
      simp [inList, listFilter, run_expect, hskip, hclose, hitems, hfound]

end Scan

end Lists

/-! ### What lists mean -/

theorem mapM_eq_none {β γ : Type} {read : β → Option γ} {items : List β} {item : β} (hmem : item ∈ items)
    (hread : read item = none) : items.mapM read = none := by
  induction items with
  | nil => cases hmem
  | cons first items ih =>
      rw [List.mapM_cons]
      rcases List.mem_cons.mp hmem with rfl | hothers
      · rw [hread]
        rfl
      · rw [ih hothers]
        cases read first <;> rfl

section OfList

variable {operand : Operand} {negated : Bool} {items : List Listed}

theorem Filter.ofList?_of_length (hlength : items.length ≠ 1) :
    ofList? operand negated items =
      match items.mapM Listed.integer?, items.mapM Listed.string?, items.mapM Listed.nullableInteger? with
      | some values, _, _ => some (.integers operand values negated)
      | none, some values, _ => some (.strings operand values negated)
      | none, none, some values => some (.nullableIntegers operand values negated)
      | none, none, none => none := by
  match items, hlength with
  | [], _ => rfl
  | _ :: _ :: _, _ => rfl
  | [_], hlength => exact absurd rfl hlength

theorem Filter.ofList?_integers {values : List Int} (hlength : values.length ≠ 1) :
    ofList? operand negated (values.map fun value => .number (.integer value)) = some (.integers operand values negated) := by
  have hintegers : (values.map fun value => Listed.number (.integer value)).mapM Listed.integer? = some values :=
    mapM_map_eq_pure fun _ _ => rfl
  rw [ofList?_of_length (by rwa [List.length_map]), hintegers]

theorem Filter.ofList?_strings {values : List String} (hlength : 2 ≤ values.length) :
    ofList? operand negated (values.map .string) = some (.strings operand values negated) := by
  have hstrings : (values.map Listed.string).mapM Listed.string? = some values := mapM_map_eq_pure fun _ _ => rfl
  obtain ⟨first, hmem⟩ := List.exists_mem_of_length_pos (Nat.lt_of_lt_of_le Nat.two_pos hlength)
  have hintegers : (values.map Listed.string).mapM Listed.integer? = none :=
    mapM_eq_none (List.mem_map_of_mem hmem) rfl
  rw [ofList?_of_length (by rw [List.length_map]; omega), hstrings, hintegers]

def nullableItem (value : Option Int) : Listed := (value.map fun value => .number (.integer value)).getD .null

theorem Filter.ofList?_nullableIntegers {values : List (Option Int)} (hlength : 2 ≤ values.length)
    (hnull : none ∈ values) :
    ofList? operand negated (values.map nullableItem) = some (.nullableIntegers operand values negated) := by
  have hnullables : (values.map nullableItem).mapM Listed.nullableInteger? = some values :=
    mapM_map_eq_pure fun value _ => by cases value <;> rfl
  have hintegers : (values.map nullableItem).mapM Listed.integer? = none := mapM_eq_none (List.mem_map_of_mem hnull) rfl
  have hstrings : (values.map nullableItem).mapM Listed.string? = none := mapM_eq_none (List.mem_map_of_mem hnull) rfl
  rw [ofList?_of_length (by rw [List.length_map]; omega), hintegers, hstrings, hnullables]

end OfList

end TreeQuery
