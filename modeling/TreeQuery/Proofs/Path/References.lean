import TreeQuery.Proofs.Path.FilterChaining
import TreeQuery.Proofs.Path.Spelling
import TreeQuery.Proofs.Path.WellFormed

/-!
# Paths inside filters

The text of a path inside a filter is cut out before it is compiled, by a scan that knows quotes and brackets but no
backslashes. So a path of names means the same there as on its own exactly where the scan, led through the bare names,
ends outside of all quotes and brackets and meets no character that would end it before.
-/

namespace TreeQuery

/-! ### Cutting out a path -/

/-- The brackets and the quote that a place in a text lies in. -/
structure Nesting where
  depth : Nat
  quote : Option Char
deriving DecidableEq

namespace Nesting

def outside : Nesting := ⟨0, none⟩

/-- Goes past a character, unless a path inside a filter ends in front of it. -/
def pass? : Nesting → Char → Option Nesting
  | ⟨depth, some quote⟩, c => some ⟨depth, if c = quote then none else some quote⟩
  | ⟨depth, none⟩, c =>
    if isQuote c then some ⟨depth, some c⟩
    else if opensBracket c then some ⟨depth + 1, none⟩
    else if closesBracket c && 0 < depth then some ⟨depth - 1, none⟩
    else if endsReference c && depth = 0 then none
    else some ⟨depth, none⟩

/-- The scan comes through the whole text, and ends outside of everything. -/
def Closes (nesting : Nesting) (text : List Char) : Prop := text.foldlM pass? nesting = some outside

instance (nesting : Nesting) (text : List Char) : Decidable (nesting.Closes text) :=
  inferInstanceAs (Decidable (_ = _))

/-- Only quotes open a quoted part. -/
def IsSound (nesting : Nesting) : Prop := ∀ quote ∈ nesting.quote, isQuote quote = true

variable {nesting next : Nesting} {c : Char} {text rest : List Char}

theorem splitReference_cons (nesting : Nesting) (c : Char) (rest : List Char) :
    splitReference nesting.depth nesting.quote (c :: rest) =
      match nesting.pass? c with
      | some next =>
        (c :: (splitReference next.depth next.quote rest).1, (splitReference next.depth next.quote rest).2)
      | none => ([], c :: rest) := by
  obtain ⟨depth, quote⟩ := nesting
  cases quote with
  | some quote => simp [splitOutside, pass?]
  | none =>
      simp only [splitOutside, pass?]
      by_cases hquote : isQuote c = true
      · simp [hquote]
      · by_cases hopen : opensBracket c = true
        · simp [hquote, hopen]
        · by_cases hclose : (closesBracket c && decide (0 < depth)) = true
          · simp only [hquote, hopen, hclose, if_true, if_false, Bool.false_eq_true]
          · by_cases hends : (endsReference c && decide (depth = 0)) = true <;>
              simp only [hquote, hopen, hclose, hends, if_true, if_false, Bool.false_eq_true]

theorem closes_cons : nesting.Closes (c :: text) ↔ ∃ next, nesting.pass? c = some next ∧ next.Closes text :=
  Option.bind_eq_some_iff

/-- In front of a closing parenthesis exactly the closed texts are cut out whole. -/
theorem splitReference_fst_eq_iff (nesting : Nesting) (text rest : List Char) :
    (splitReference nesting.depth nesting.quote (text ++ ')' :: rest)).1 = text ↔ nesting.Closes text := by
  induction text generalizing nesting with
  | nil =>
      rw [List.nil_append, splitReference_cons]
      obtain ⟨depth, quote⟩ := nesting
      cases quote with
      | some quote => simp [pass?, Closes, outside]
      | none => cases depth <;> simp [pass?, Closes, outside, isQuote, opensBracket, closesBracket, endsReference]
  | cons c text ih =>
      rw [List.cons_append, splitReference_cons, closes_cons]
      cases nesting.pass? c with
      | none => simp
      | some next => simp [ih next]

theorem splitReference_of_closes (hcloses : outside.Closes text) (rest : List Char) :
    splitReference 0 none (text ++ ')' :: rest) = (text, ')' :: rest) := by
  have hfst : (splitReference 0 none (text ++ ')' :: rest)).1 = text :=
    (splitReference_fst_eq_iff outside text rest).mpr hcloses
  have hsnd := append_splitOutside endsReference 0 none (text ++ ')' :: rest)
  rw [hfst] at hsnd
  exact Prod.ext hfst (List.append_cancel_left hsnd)

/-! ### Names -/

theorem IsSound.pass? (hsound : nesting.IsSound) (hnext : nesting.pass? c = some next) : next.IsSound := by
  obtain ⟨depth, quote⟩ := nesting
  cases quote with
  | some quote =>
      simp only [Nesting.pass?, Option.some.injEq] at hnext
      subst hnext
      intro found hfound
      split at hfound
      · cases hfound
      · exact hsound found hfound
  | none =>
      have hnone : ∀ depth, IsSound ⟨depth, none⟩ := fun _ _ hfound => by cases hfound
      simp only [Nesting.pass?] at hnext
      split at hnext
      · next hquote =>
          cases hnext
          intro found hfound
          rwa [← Option.some.inj hfound]
      · repeat' split at hnext
        all_goals cases hnext
        all_goals exact hnone _

/-- Characters that the scan does not look at, wherever they stand. -/
theorem pass?_of_plain (hsound : nesting.IsSound) (hquote : isQuote c = false) (hopen : opensBracket c = false)
    (hends : endsReference c = false) : nesting.pass? c = some nesting := by
  obtain ⟨depth, quote⟩ := nesting
  cases quote with
  | some quote =>
      have hne : c ≠ quote := by
        rintro rfl
        exact absurd (hsound c rfl) (by rw [hquote]; exact Bool.false_ne_true)
      simp [pass?, hne]
  | none =>
      have hclose : closesBracket c = false := by
        simp only [endsReference, Bool.or_eq_false_iff] at hends
        exact hends.1.1.1.1
      simp [pass?, hquote, hopen, hclose, hends]

/-- The scan makes no difference between the texts. -/
def Alike (text text' : List Char) : Prop :=
  ∀ nesting : Nesting, nesting.IsSound → text.foldlM Nesting.pass? nesting = text'.foldlM Nesting.pass? nesting

variable {text' : List Char}

theorem Alike.cons (halike : Alike text text') (c : Char) : Alike (c :: text) (c :: text') := by
  intro nesting hsound
  rw [List.foldlM_cons, List.foldlM_cons]
  cases hnext : nesting.pass? c with
  | none => rfl
  | some next => exact halike next (hsound.pass? hnext)

theorem Alike.cons_plain (halike : Alike text text') (hquote : isQuote c = false) (hopen : opensBracket c = false)
    (hends : endsReference c = false) : Alike (c :: text) text' := by
  intro nesting hsound
  rw [List.foldlM_cons, pass?_of_plain hsound hquote hopen hends]
  exact halike nesting hsound

theorem Alike.escaped (halike : Alike text text') (c : Char) : Alike ('\\' :: c :: text) (c :: text') :=
  (halike.cons c).cons_plain (by decide) (by decide) (by decide)

theorem Alike.escapeNameChar (halike : Alike text text') (c : Char) :
    Alike (TreeQuery.escapeNameChar c ++ text) (c :: text') := by
  rw [TreeQuery.escapeNameChar]
  split
  · exact halike.cons c
  · exact halike.escaped c

theorem Alike.flatMap (halike : Alike text text') (name : List Char) :
    Alike (name.flatMap TreeQuery.escapeNameChar ++ text) (name ++ text') := by
  induction name with
  | nil => exact halike
  | cons c name ih =>
      rw [List.flatMap_cons, List.append_assoc]
      exact ih.escapeNameChar c

theorem Alike.escapeName (halike : Alike text text') (name : List Char) :
    Alike (TreeQuery.escapeName name ++ text) (name ++ text') := by
  cases name with
  | nil => exact halike
  | cons c name =>
      rw [TreeQuery.escapeName, List.append_assoc]
      split
      · exact (halike.flatMap name).escaped c
      · exact (halike.flatMap name).escapeNameChar c

theorem alike_dottedNames (names : List String) : Alike (dottedNames names) (names.flatMap String.toList) := by
  induction names with
  | nil => exact fun _ _ => rfl
  | cons name names ih =>
      rw [dottedNames, List.flatMap_cons, List.cons_append]
      exact (ih.escapeName name.toList).cons_plain (by decide) (by decide) (by decide)

theorem closes_dottedNames (names : List String) :
    outside.Closes ('$' :: dottedNames names) ↔ outside.Closes (names.flatMap String.toList) := by
  have halike : Alike ('$' :: dottedNames names) (names.flatMap String.toList) :=
    (alike_dottedNames names).cons_plain (by decide) (by decide) (by decide)
  rw [Closes, Closes, halike outside fun _ hquote => by cases hquote]

end Nesting

/-! ### References in front of a closing parenthesis -/

section Reading

variable {style : FilterStyle} {operand : Operand} {test : Comparison} {compile : String → Except Fault Path}
  {text rest : List Char} {length fuel : Nat} {refers : Bool} {s s' : Parser} {left found : Filter} {path : Path}

namespace Scan

theorem run_referenceFilter (hcloses : Nesting.outside.Closes text)
    (hcompile : compile (String.ofList text) = .ok path) :
    (referenceFilter compile operand (.compare test)).run ⟨⟨length, text ++ ')' :: rest, 0⟩, refers⟩ =
      .ok (.reference operand test path) ⟨⟨length, ')' :: rest, 0⟩, true⟩ := by
  simp only [referenceFilter, Operator.comparison, EStateM.run_bind, run_parse, EStateM.run_pure,
    Parser.afterScan_ok, EStateM.run_get, run_reference, Nesting.splitReference_of_closes hcloses, hcompile]
  rfl

theorem run_referenceFilter_error {cause : PathFault} {position : Nat}
    (hcompile : compile (String.ofList (splitReference 0 none text).1) = .error (.path cause position)) :
    (referenceFilter compile operand (.compare test)).run ⟨⟨length, text, 0⟩, refers⟩ =
      .error (.path cause (Scanner.position ⟨length, text, 0⟩ + position))
        ⟨⟨length, (splitReference 0 none text).2, 0⟩, refers⟩ := by
  simp only [referenceFilter, Operator.comparison, EStateM.run_bind, run_parse, EStateM.run_pure,
    Parser.afterScan_ok, EStateM.run_get, run_reference, hcompile]
  rfl

theorem compile_of_run_referenceFilter
    (hrun : (referenceFilter compile operand (.compare test)).run ⟨⟨length, text, 0⟩, refers⟩ =
      .ok (.reference operand test path) s') :
    compile (String.ofList (splitReference 0 none text).1) = .ok path := by
  simp only [referenceFilter, Operator.comparison, EStateM.run_bind, run_parse, EStateM.run_pure,
    Parser.afterScan_ok, EStateM.run_get, run_reference] at hrun
  generalize compile (String.ofList (splitReference 0 none text).1) = compiled at hrun
  cases compiled with
  | ok found =>
      cases hrun
      rfl
  | error fault => cases fault <;> cases hrun

theorem run_predicate_reference (hoperand : operand.IsNamed) :
    (predicate compile).run ⟨⟨length, style.test operand test.chars ('$' :: text) ++ rest, 0⟩, refers⟩ =
      (referenceFilter compile operand (.compare test)).run ⟨⟨length, '$' :: (text ++ rest), 0⟩, refers⟩ := by
  rw [run_predicate_test hoperand (run_operator_chars test) test.chars_starts (head?_cons_forall (by decide))]
  simp [rightSide, isQuote, startsNumber]

/-! ### Filters around references -/

/-- A chain is what it began with, or a group. -/
theorem eq_or_isGroup_of_run_filterChain (hrun : (filterChain compile fuel left).run s = .ok found s') :
    found = left ∨ found.isGroup = true := by
  induction fuel generalizing left s with
  | zero => cases hrun
  | succ fuel ih =>
      rw [filterChain] at hrun
      obtain ⟨_, t, -, hrun⟩ := run_bind_eq_ok.mp hrun
      obtain ⟨connective, t, -, hrun⟩ := run_bind_eq_ok.mp hrun
      cases connective with
      | none =>
          cases hrun
          exact .inl rfl
      | some connective =>
          obtain ⟨right, t, -, hrun⟩ := run_bind_eq_ok.mp hrun
          rcases ih hrun with rfl | hgroup
          · exact .inr rfl
          · exact .inr hgroup

theorem run_filterTerm_of_run_filter (hrun : (filter compile (fuel + 1)).run s = .ok found s')
    (hleaf : found.isGroup = false) : ∃ t, (filterTerm compile fuel).run s = .ok found t := by
  rw [filter] at hrun
  obtain ⟨left, t, hterm, hchain⟩ := run_bind_eq_ok.mp hrun
  rcases eq_or_isGroup_of_run_filterChain hchain with rfl | hgroup
  · exact ⟨t, hterm⟩
  · rw [hleaf] at hgroup
    cases hgroup

theorem run_filter_of_run_filterTerm
    (hrun : (filterTerm compile (fuel + 1)).run ⟨⟨length, '(' :: text, 0⟩, refers⟩ = .ok found s') :
    ∃ t, (filter compile fuel).run ⟨⟨length, text, 0⟩, refers⟩ = .ok found t := by
  rw [run_filterTerm_parenthesis] at hrun
  obtain ⟨inner, t, hfilter, hrun⟩ := run_bind_eq_ok.mp hrun
  obtain ⟨_, _, -, hrun⟩ := run_bind_eq_ok.mp hrun
  obtain ⟨_, _, -, hrun⟩ := run_bind_eq_ok.mp hrun
  cases hrun
  exact ⟨t, hfilter⟩

theorem run_filterTerm_reference (hoperand : operand.IsNamed) :
    (filterTerm compile (fuel + 1)).run ⟨⟨length, style.test operand test.chars ('$' :: text) ++ rest, 0⟩, refers⟩ =
      (referenceFilter compile operand (.compare test)).run ⟨⟨length, '$' :: (text ++ rest), 0⟩, refers⟩ := by
  obtain ⟨c, tail, hwritten, hstarts⟩ := style.exists_operand hoperand
  obtain ⟨hblank, hc⟩ := startsTest_facts hstarts
  calc
    _ = (predicate compile).run ⟨⟨length, style.test operand test.chars ('$' :: text) ++ rest, 0⟩, refers⟩ := by
      rw [FilterStyle.test, hwritten]
      exact run_filterTerm_predicate hblank hc
    _ = _ := run_predicate_reference hoperand

theorem run_filterSegment_reference (hoperand : operand.IsNamed) (hcloses : Nesting.outside.Closes ('$' :: text))
    (hcompile : compile (String.ofList ('$' :: text)) = .ok path) :
    (filterSegment compile).run
        ⟨⟨length, '(' :: (style.test operand test.chars ('$' :: text) ++ ')' :: ']' :: rest), 0⟩, refers⟩ =
      .ok (.filter (.reference operand test path)) ⟨⟨length, ']' :: rest, 0⟩, true⟩ := by
  have hterm : ∀ fuel, (filterTerm compile (fuel + 1)).run
      ⟨⟨length, style.test operand test.chars ('$' :: text) ++ ')' :: ']' :: rest, 0⟩, refers⟩ =
        .ok (.reference operand test path) ⟨⟨length, ')' :: ']' :: rest, 0⟩, true⟩ := fun fuel => by
    have hreference : (referenceFilter compile operand (.compare test)).run
        ⟨⟨length, '$' :: text ++ ')' :: ']' :: rest, 0⟩, refers⟩ =
          .ok (.reference operand test path) ⟨⟨length, ')' :: ']' :: rest, 0⟩, true⟩ :=
      run_referenceFilter hcloses hcompile
    rw [run_filterTerm_reference hoperand, ← List.cons_append, hreference]
  have hskip : skipBlank.run ⟨length, ')' :: ']' :: rest, 0⟩ = .ok () ⟨length, ')' :: ']' :: rest, 0⟩ := rfl
  generalize style.test operand test.chars ('$' :: text) ++ ')' :: ']' :: rest = written at hterm ⊢
  have hinner : ∀ fuel, (filter compile (fuel + 2)).run ⟨⟨length, written, 0⟩, refers⟩ =
      .ok (.reference operand test path) ⟨⟨length, ')' :: ']' :: rest, 0⟩, true⟩ := fun fuel =>
    run_filter_stop (by decide) (by decide) (hterm fuel)
  have houter : ∀ fuel, (filter compile (fuel + 4)).run ⟨⟨length, '(' :: written, 0⟩, refers⟩ =
      .ok (.reference operand test path) ⟨⟨length, ']' :: rest, 0⟩, true⟩ := fun fuel => by
    refine run_filter_stop (by decide) (by decide) ?_
    rw [run_filterTerm_parenthesis]
    simp [hinner, hskip, run_expect]
  simp [filterSegment, houter, Nat.mul_add]

theorem compile_of_run_filterSegment_reference (hoperand : operand.IsNamed)
    (hrun : (filterSegment compile).run
        ⟨⟨length, '(' :: (style.test operand test.chars ('$' :: text) ++ rest), 0⟩, refers⟩ =
      .ok (.filter (.reference operand test path)) s') :
    compile (String.ofList (splitReference 0 none ('$' :: (text ++ rest))).1) = .ok path := by
  rw [filterSegment] at hrun
  obtain ⟨_, _, ⟨⟩, hrun⟩ := run_bind_eq_ok.mp hrun
  obtain ⟨found, t, hfilter, hrun⟩ := run_bind_eq_ok.mp hrun
  cases hrun
  obtain ⟨t, hterm⟩ := run_filterTerm_of_run_filter hfilter rfl
  obtain ⟨t, hfilter⟩ := run_filter_of_run_filterTerm hterm
  obtain ⟨t, hterm⟩ := run_filterTerm_of_run_filter hfilter rfl
  rw [run_filterTerm_reference hoperand] at hterm
  exact compile_of_run_referenceFilter hterm

theorem run_filterSegment_of_error {fault : Fault} {t : Parser} (hoperand : operand.IsNamed)
    (herror : (referenceFilter compile operand (.compare test)).run ⟨⟨length, '$' :: (text ++ rest), 0⟩, refers⟩ =
      .error fault t) :
    (filterSegment compile).run
        ⟨⟨length, '(' :: (style.test operand test.chars ('$' :: text) ++ rest), 0⟩, refers⟩ = .error fault t := by
  have hterm : ∀ fuel, (filterTerm compile (fuel + 1)).run
      ⟨⟨length, style.test operand test.chars ('$' :: text) ++ rest, 0⟩, refers⟩ = .error fault t := fun fuel => by
    rw [run_filterTerm_reference hoperand, herror]
  generalize style.test operand test.chars ('$' :: text) ++ rest = written at hterm ⊢
  simp [filterSegment, filter, run_filterTerm_parenthesis, hterm, Nat.mul_add]

theorem run_wholePath_filter :
    (wholePath compile).run ⟨⟨length, '$' :: '[' :: '?' :: text, 0⟩, refers⟩ =
      (do
        let segment ← filterSegment compile
        skipBlank
        expect ']'
        let segments ← segments compile (text.length + 2) false
        return segment :: segments : Parse (List Segment)).run ⟨⟨length, text, 0⟩, refers⟩ := by
  have hdollar : skipBlank.run ⟨length, '$' :: '[' :: '?' :: text, 0⟩ =
      .ok () ⟨length, '$' :: '[' :: '?' :: text, 0⟩ := rfl
  have hbracket : skipBlank.run ⟨length, '[' :: '?' :: text, 0⟩ = .ok () ⟨length, '[' :: '?' :: text, 0⟩ := rfl
  have hmark : skipBlank.run ⟨length, '?' :: text, 0⟩ = .ok () ⟨length, '?' :: text, 0⟩ := rfl
  simp [wholePath, segments, segment, bracket, bracketContent, hdollar, hbracket, hmark, run_eat_self, run_expect]

end Scan

end Reading

/-! ### Paths of names in filters -/

/-- The path whose only segment compares with another path. -/
def FilterStyle.referenceText (style : FilterStyle) (operand : Operand) (test : Comparison) (path : List Char) :
    String :=
  "$[?(" ++ String.ofList (style.test operand test.chars path) ++ ")]"

theorem FilterStyle.referenceText_eq (style : FilterStyle) (operand : Operand) (test : Comparison) (path : List Char) :
    style.referenceText operand test path =
      String.ofList ('$' :: '[' :: '?' :: '(' :: (style.test operand test.chars path ++ [')', ']'])) := by
  rw [← String.toList_inj]
  simp [referenceText]

namespace Path

variable {style : FilterStyle} {operand : Operand} {test : Comparison} {dropNulls : Bool} {fuel : Nat}
  {text : List Char} {path found : Path}

theorem compileWith_referenceText (hoperand : operand.IsNamed) (hcloses : Nesting.outside.Closes ('$' :: text))
    (hcompile : compileWith dropNulls fuel (String.ofList ('$' :: text)) = .ok path) :
    compileWith dropNulls (fuel + 1) (style.referenceText operand test ('$' :: text)) =
      .ok (.mk (style.referenceText operand test ('$' :: text)) [.filter (.reference operand test path)]
        true dropNulls) := by
  rw [style.referenceText_eq]
  refine compileWith_of_wholePath (by decide) rfl fun length => ?_
  have hskip : Scan.skipBlank.run ⟨length, [']'], 0⟩ = .ok () ⟨length, [']'], 0⟩ := rfl
  rw [Scan.run_wholePath_filter, EStateM.run_bind, Scan.run_filterSegment_reference hoperand hcloses hcompile]
  simp [hskip, Scan.run_expect]
  rfl

theorem compileWith_of_referenceText {whole : String} {refers : Bool} (hoperand : operand.IsNamed)
    (hcompile : compileWith dropNulls (fuel + 1) (style.referenceText operand test ('$' :: text)) =
      .ok (.mk whole [.filter (.reference operand test path)] refers dropNulls)) :
    compileWith dropNulls fuel (String.ofList (splitReference 0 none ('$' :: (text ++ [')', ']']))).1) = .ok path := by
  rw [style.referenceText_eq, compileWith_cons (by decide) rfl, Scan.run_wholePath_filter] at hcompile
  split at hcompile
  · next segments s hwhole =>
      cases hcompile
      obtain ⟨segment, t, hsegment, hrest⟩ := run_bind_eq_ok.mp hwhole
      obtain ⟨_, _, -, hrest⟩ := run_bind_eq_ok.mp hrest
      obtain ⟨_, _, -, hrest⟩ := run_bind_eq_ok.mp hrest
      obtain ⟨_, _, -, hrest⟩ := run_bind_eq_ok.mp hrest
      cases hrest
      exact Scan.compile_of_run_filterSegment_reference hoperand hsegment
  · cases hcompile

/-- Where what is cut out does not compile, the whole does not, for the same cause. -/
theorem compileWith_referenceText_error (style : FilterStyle) (hoperand : operand.IsNamed) (test : Comparison)
    {cause : PathFault} {position : Nat}
    (hcompile : compileWith dropNulls fuel
      (String.ofList (splitReference 0 none ('$' :: (text ++ [')', ']']))).1) = .error (.path cause position)) :
    ∃ start, compileWith dropNulls (fuel + 1) (style.referenceText operand test ('$' :: text)) =
      .error (.path cause (start + position)) := by
  rw [style.referenceText_eq, compileWith_cons (by decide) rfl, Scan.run_wholePath_filter]
  generalize byteLength _ = length
  refine ⟨Scanner.position ⟨length, '$' :: (text ++ [')', ']']), 0⟩, ?_⟩
  rw [EStateM.run_bind, Scan.run_filterSegment_of_error hoperand (Scan.run_referenceFilter_error hcompile)]

/-- **What a path of names means in a filter.** A path of names means the same inside a filter as on its own exactly
if the names, written one after another without backslashes, close the quotes and brackets that they open, and have no
further closing bracket and no blank, comma, ampersand or bar outside of them. -/
theorem compile_reference (names : List String) (hnames : ∀ name ∈ names, name ≠ "") (style : FilterStyle)
    {operand : Operand} (hoperand : operand.IsNamed) (test : Comparison) (dropNulls : Bool) :
    ∃ path, compile (String.ofList ('$' :: dottedNames names)) dropNulls = .ok path ∧
      path.segments = Segment.ofNames names ∧
      ((∃ found, compile (style.referenceText operand test ('$' :: dottedNames names)) dropNulls =
            .ok (.mk (style.referenceText operand test ('$' :: dottedNames names))
              [.filter (.reference operand test found)] true dropNulls) ∧
          found.text = path.text ∧ found.segments = path.segments) ↔
        Nesting.outside.Closes (names.flatMap String.toList)) := by
  refine ⟨_, compile_dottedNames names hnames dropNulls, rfl, ?_⟩
  have hpathText := (spelledPath_dottedNames hnames).pathText
  rw [← Nesting.closes_dottedNames]
  constructor
  · rintro ⟨found, hcompile, htext, -⟩
    -- A path has the text it was cut to, so that a path cut short is told apart by its text.
    have hcut := text_of_compileWith (compileWith_of_referenceText hoperand hcompile)
    rw [htext, Path.text, String.ofList_inj] at hcut
    exact (Nesting.splitReference_fst_eq_iff _ _ [']']).mp hcut.symm
  · intro hcloses
    refine ⟨_, ?_, rfl, rfl⟩
    have hlength : (style.referenceText operand test ('$' :: dottedNames names)).length =
        (style.test operand test.chars ('$' :: dottedNames names) ++ [')', ']']).length + 3 + 1 := by
      rw [style.referenceText_eq, String.length_ofList]
      simp
    rw [compile, hlength]
    exact compileWith_referenceText hoperand hcloses (hpathText.compileWith_dollar dropNulls _)

def anchoredStyle : FilterStyle := { plainStyle with anchored := true }

/-- Brackets and commas in a name are no obstacle if the brackets close around the commas. -/
theorem compile_reference_call :
    ∃ path found, compile "$.f\\(x\\,\\ y\\).\\1st" true = .ok path ∧
      path.segments = [.property "f(x, y)" false, .property "1st" false] ∧
      compile "$[?(@.x == $.f\\(x\\,\\ y\\).\\1st)]" true =
        .ok (.mk "$[?(@.x == $.f\\(x\\,\\ y\\).\\1st)]" [.filter (.reference (.property "x") .eq found)] true true) ∧
      found.text = path.text ∧ found.segments = path.segments := by
  have hnames : ∀ name ∈ ["f(x, y)", "1st"], name ≠ "" := by decide
  have hoperand : Operand.IsNamed (.property "x") := by decide
  obtain ⟨path, hcompile, hsegments, hiff⟩ := compile_reference _ hnames anchoredStyle hoperand .eq true
  obtain ⟨found, hfound, hsame⟩ := hiff.mpr (by decide)
  exact ⟨path, found, hcompile, hsegments, hfound, hsame⟩

/-- A blank in a name ends the path in a filter, in front of a backslash that then stands alone. -/
theorem compile_reference_blank :
    compile "$.a\\ b" true = .ok (.mk "$.a\\ b" [.property "a b" false] false true) ∧
      ∃ position, compile "$[?(@.x == $.a\\ b)]" true = .error (.path .danglingEscape position) := by
  have hnames : ∀ name ∈ ["a b"], name ≠ "" := by decide
  have hoperand : Operand.IsNamed (.property "x") := by decide
  refine ⟨compile_dottedNames _ hnames true, ?_⟩
  have hcut : compileWith true 19
      (String.ofList (splitReference 0 none ('$' :: (dottedNames ["a b"] ++ [')', ']']))).1) =
        .error (.path .danglingEscape 4) := rfl
  obtain ⟨start, hcompile⟩ := compileWith_referenceText_error anchoredStyle hoperand .eq hcut
  exact ⟨start + 4, hcompile⟩

end Path

end TreeQuery
