import TreeQuery.Proofs.Path.Boundaries
import TreeQuery.Proofs.Path.WellFormed

/-!
# Compiling any text

The readings that paths are made of, from single operands up to whole paths with paths inside their filters. Each of
them ends as long as its steps are as many as the characters that are left, and so compiling always ends.
-/

namespace TreeQuery

/-- The operators that a quoted string can follow. -/
def Operator.TakesString : Operator → Prop
  | compare _ | like _ | rlike _ => True
  | _ => False

theorem Literal.isNumber_toTree (value : Literal) : value.toTree.isNumber = true := by
  cases value <;> rfl

namespace Scan

variable {whole text : List Char} {good : Path → Prop}

/-! ### Operands and operators -/

theorem sound_parentheses : Sound whole parentheses text anyEnd := by
  rw [parentheses]
  refine (sound_expect '(').bind fun _ _ _ _ => ?_
  refine sound_skipBlank.bind fun _ _ _ _ => ?_
  exact (sound_expect ')').imp fun _ _ _ _ => trivial

theorem sound_operand : Sound whole operand text fun found _ => found.WellFormed := by
  rw [operand]
  refine (sound_eat '@').bind fun anchored rest _ _ => ?_
  refine sound_optional ((sound_expect '.').imp fun _ _ _ _ => trivial) fun rest _ => ?_
  refine sound_name.bind fun name rest _ _ => sound_peek? ?_
  split
  · refine sound_get fun _ => sound_parentheses.bind fun _ _ _ _ => ?_
    split
    · exact sound_pure trivial
    · exact sound_pure trivial
    · exact sound_unsupported trivial
  · exact sound_pure (HashedName.isHashed_ofText _)

theorem sound_negatedOperator : Sound whole negatedOperator text anyEnd := by
  rw [negatedOperator]
  refine sound_skipBlank.bind fun _ _ _ _ => ?_
  refine sound_ifKeyword "like" (fun _ _ => sound_pure trivial) fun _ _ => ?_
  refine sound_ifKeyword "rlike" (fun _ _ => sound_pure trivial) fun _ _ => ?_
  refine sound_ifKeyword "in" (fun _ _ => sound_pure trivial) fun _ _ => ?_
  refine sound_ifKeyword "between" (fun _ _ => sound_pure trivial) fun _ _ => ?_
  exact sound_rest (sound_unsupported trivial)

theorem sound_wordOperator : Sound whole wordOperator text anyEnd := by
  rw [wordOperator]
  refine sound_get fun htext => ?_
  refine sound_ifKeyword "not" (fun _ _ => sound_negatedOperator) fun _ _ => ?_
  refine sound_ifKeyword "nin" (fun _ _ => sound_pure trivial) fun _ _ => ?_
  refine sound_ifKeyword "like" (fun _ _ => sound_pure trivial) fun _ _ => ?_
  refine sound_ifKeyword "rlike" (fun _ _ => sound_pure trivial) fun _ _ => ?_
  refine sound_ifKeyword "in" (fun _ _ => sound_pure trivial) fun _ _ => ?_
  refine sound_ifKeyword "between" (fun _ _ => sound_pure trivial) fun _ _ => sound_peek? ?_
  split
  · split
    · exact sound_name.bind fun _ _ _ _ => sound_unsupported trivial
    · exact sound_unexpectedAt htext trivial
  · exact sound_failAt htext trivial

theorem sound_operator : Sound whole operator text anyEnd := by
  rw [operator]
  refine sound_ifEat '=' (fun _ _ => ?_) fun _ _ => ?_
  · refine sound_ifEat '~' (fun _ _ => sound_pure trivial) fun _ _ => ?_
    exact (sound_eat '=').bind fun _ _ _ _ => sound_pure trivial
  refine sound_ifEat '!' (fun _ _ => ?_) fun _ _ => ?_
  · exact (sound_expect '=').bind fun _ _ _ _ => sound_pure trivial
  refine sound_ifEat '<' (fun _ _ => ?_) fun _ _ => ?_
  · exact (sound_eat '=').bind fun _ _ _ _ => sound_pure trivial
  refine sound_ifEat '>' (fun _ _ => ?_) fun _ _ => sound_wordOperator
  exact (sound_eat '=').bind fun _ _ _ _ => sound_pure trivial

theorem sound_comparison (operator : Operator) {operand : String} (hoperand : operand ≠ "a string") :
    Sound whole (operator.comparison operand) text fun _ rest => rest = text := by
  cases operator <;> first | exact sound_pure rfl | exact sound_unsupported hoperand

/-! ### Right sides -/

/-- The filter is well formed, and its paths are good. -/
abbrev filterFits (good : Path → Prop) : Filter → List Char → Prop := fun found _ => found.Fits good

variable {operand : Operand}

theorem sound_bound : Sound whole bound text anyEnd := by
  rw [bound]
  refine sound_peek? ?_
  split
  · split
    · exact sound_number
    · exact sound_unsupported trivial
  · exact sound_unsupported trivial

theorem sound_between (hoperand : operand.WellFormed) (negated : Bool) :
    Sound whole (between operand negated) text (filterFits good) := by
  rw [between]
  refine sound_bound.bind fun low _ _ _ => sound_skipBlank.bind fun _ _ _ _ => ?_
  refine (sound_eatKeyword "and").bind fun found _ _ _ => ?_
  refine sound_optional (sound_fail trivial) fun _ _ => ?_
  refine sound_skipBlank.bind fun _ _ _ _ => sound_bound.bind fun high _ _ _ => sound_pure (.of_leaf rfl ?_)
  exact And.intro hoperand (And.intro low.isNumber_toTree high.isNumber_toTree)

theorem sound_listedKeyword : Sound whole listedKeyword text anyEnd := by
  rw [listedKeyword]
  refine sound_get fun htext => ?_
  refine sound_ifKeyword "null" (fun _ _ => sound_pure trivial) fun _ _ => ?_
  refine sound_ifKeyword "true" (fun _ _ => sound_pure trivial) fun _ _ => ?_
  refine sound_ifKeyword "false" (fun _ _ => sound_pure trivial) fun _ _ => ?_
  exact sound_unexpectedAt htext trivial

theorem sound_listed : Sound whole listed text anyEnd := by
  rw [listed]
  refine sound_peek? ?_
  split
  · split
    · exact sound_string.bind fun _ _ _ _ => sound_pure trivial
    · split
      · exact sound_number.bind fun _ _ _ _ => sound_pure trivial
      · exact sound_listedKeyword
  · exact sound_listedKeyword

/-- Every further value is behind a comma. -/
theorem sound_listItems {fuel : Nat} (hfuel : text.length < fuel) : Sound whole (listItems fuel) text anyEnd := by
  induction fuel generalizing text with
  | zero => exact absurd hfuel (Nat.not_lt_zero _)
  | succ fuel ih =>
      rw [listItems]
      refine sound_skipBlank.bind fun _ _ hfirst _ => sound_listed.bind fun item _ hsecond _ => ?_
      refine sound_skipBlank.bind fun _ _ hthird _ => ?_
      refine sound_ifEat ',' (fun rest hrest => ?_) fun _ _ => ?_
      · exact (ih (by omega)).bind fun _ _ _ _ => sound_pure trivial
      · exact (sound_expect ')').bind fun _ _ _ _ => sound_pure trivial

theorem sound_listFilter (hoperand : operand.WellFormed) (negated : Bool) (items : List Listed) :
    Sound whole (listFilter operand negated items) text (filterFits good) := by
  rw [listFilter]
  split
  · next hfilter => exact sound_pure (Filter.fits_of_ofList? _ hoperand hfilter)
  · exact sound_unsupported trivial

theorem sound_inList (hoperand : operand.WellFormed) (negated : Bool) :
    Sound whole (inList operand negated) text (filterFits good) := by
  rw [inList]
  refine (sound_expect '(').bind fun _ _ _ _ => sound_skipBlank.bind fun _ _ _ _ => ?_
  refine sound_ifEat ')' (fun _ _ => sound_listFilter hoperand _ _) fun rest _ => sound_get fun _ => ?_
  exact (sound_listItems (Nat.lt_succ_self _)).bind fun items _ _ _ => sound_listFilter hoperand _ items

theorem sound_pattern (source : String) (ignoreCase : Bool) {place : List Char} (hplace : place <:+ whole) :
    Sound whole (pattern source ignoreCase ⟨byteLength whole, place, 0⟩) text anyEnd := by
  rw [pattern]
  split
  · exact sound_pure trivial
  · exact sound_failAt hplace trivial

theorem sound_regexFilter (hoperand : operand.WellFormed) :
    Sound whole (regexFilter operand) text (filterFits good) := by
  rw [regexFilter]
  refine sound_get fun htext => sound_peek? ?_
  refine sound_optional (sound_fail trivial) fun _ _ => sound_regex.bind fun found _ _ _ => ?_
  exact (sound_pattern _ _ htext).bind fun _ _ _ _ => sound_pure (.of_leaf rfl hoperand)

theorem sound_stringFilter (hoperand : operand.WellFormed) {operator : Operator} (hoperator : operator.TakesString) :
    Sound whole (stringFilter operand operator) text (filterFits good) := by
  have hcompared (test : Comparison) (value : String) : (Filter.string operand test value).Fits good :=
    .of_leaf rfl (And.intro hoperand test.mem_all)
  rw [stringFilter.eq_def]
  refine sound_get fun htext => sound_string.bind fun value _ _ _ => ?_
  split
  · split
    · next hpattern =>
        exact sound_pure (.of_leaf rfl (And.intro hoperand (LikePattern.wellFormed_of_compile? hpattern)))
    · exact sound_pure (hcompared _ _)
  · exact (sound_pattern _ _ htext).bind fun _ _ _ _ => sound_pure (.of_leaf rfl hoperand)
  · next _ hlike hrlike =>
      cases operator with
      | compare test => exact sound_pure (hcompared test value)
      | like negated => exact (hlike negated rfl).elim
      | rlike negated => exact (hrlike negated rfl).elim
      | _ => exact False.elim hoperator

theorem sound_numberFilter (hoperand : operand.WellFormed) (operator : Operator) :
    Sound whole (numberFilter operand operator) text (filterFits good) := by
  rw [numberFilter]
  refine (sound_comparison operator (by decide)).bind fun test _ _ _ => sound_number.bind fun value _ _ _ => ?_
  split
  · exact sound_pure (.of_leaf rfl (And.intro hoperand test.mem_all))
  · exact sound_pure (.of_leaf rfl (And.intro hoperand test.mem_all))

theorem sound_nullFilter (hoperand : operand.WellFormed) (operator : Operator) :
    Sound whole (nullFilter operand operator) text (filterFits good) := by
  rw [nullFilter.eq_def]
  split
  · exact sound_pure (.of_leaf rfl hoperand)
  · exact sound_pure (.of_leaf rfl hoperand)
  · exact sound_unsupported trivial

theorem sound_boolFilter (hoperand : operand.WellFormed) (value : Bool) (operator : Operator) :
    Sound whole (boolFilter operand value operator) text (filterFits good) := by
  rw [boolFilter.eq_def]
  split
  · exact sound_pure (.of_leaf rfl hoperand)
  · exact sound_pure (.of_leaf rfl hoperand)
  · exact sound_unsupported trivial

theorem sound_keywordFilter (hoperand : operand.WellFormed) (operator : Operator) :
    Sound whole (keywordFilter operand operator) text (filterFits good) := by
  rw [keywordFilter]
  refine sound_get fun htext => ?_
  refine sound_ifKeyword "null" (fun _ _ => sound_nullFilter hoperand _) fun _ _ => ?_
  refine sound_ifKeyword "true" (fun _ _ => sound_boolFilter hoperand _ _) fun _ _ => ?_
  refine sound_ifKeyword "false" (fun _ _ => sound_boolFilter hoperand _ _) fun _ _ => ?_
  exact sound_unexpectedAt htext trivial

/-! ### Filters -/

section Filters

variable {compile : String → Except Fault Path} {left : Filter} {fuel : Nat}

/-- Texts that are shorter than the whole compile to good paths, or fail at a place of their own. -/
structure Compiles (whole : List Char) (good : Path → Prop) (compile : String → Except Fault Path) : Prop where
  good_of_ok : ∀ text path, text.length < whole.length → compile text = .ok path → good path
  locates : ∀ text fault, text.length < whole.length → compile text = .error fault → fault.Locates text.toList

/-- A filter that fits, where a reference is noted if it has one. -/
abbrev filterNoted (good : Path → Prop) (refers : Bool) : Filter → Bool → List Char → Prop := fun found noted _ =>
  found.Fits good ∧ noted = (refers || found.refers)

/-- What the scanner reads on its own mentions no paths. -/
theorem Sound.parse_filter {scan : Scan Filter} (hscan : Sound whole scan text (filterFits fun _ => False))
    (refers : Bool) : SoundParse whole (liftM scan) text refers (filterNoted good refers) := by
  refine hscan.parse fun found _ _ hfound => ⟨hfound.mono fun _ => False.elim, ?_⟩
  rw [hfound.refers_eq_false, Bool.or_false]

theorem sound_referenceFilter (hcompile : Compiles whole good compile) (hlt : text.length < whole.length)
    (hoperand : operand.WellFormed) (operator : Operator) (refers : Bool) :
    SoundParse whole (referenceFilter compile operand operator) text refers (filterNoted good refers) := by
  rw [referenceFilter]
  refine (sound_comparison operator (by decide)).parse_bind fun test rest _ hrest => ?_
  subst hrest
  refine soundParse_get fun htext => ?_
  have happend : (splitReference 0 none rest).1 ++ (splitReference 0 none rest).2 = rest :=
    append_splitOutside endsReference 0 none rest
  have hsuffix : (splitReference 0 none rest).2 <:+ rest := ⟨_, happend⟩
  refine soundParse_bind_of_run (run_reference _ rest) hsuffix ?_
  have hshorter : (String.ofList (splitReference 0 none rest).1).length < whole.length := by
    have hlength := congrArg List.length happend
    rw [List.length_append] at hlength
    rw [String.length_ofList]
    omega
  split
  · next path hpath =>
      have hfits : (Filter.reference operand test path).Fits good := by
        refine ⟨And.intro hoperand test.mem_all, fun inner hmentions => ?_⟩
        cases hmentions
        exact hcompile.good_of_ok _ _ hshorter hpath
      exact fun _ => ⟨_, rfl, List.suffix_rfl, hfits, (Bool.or_true refers).symm⟩
  · next cause position hfault =>
      obtain ⟨hcause, hboundary⟩ := hcompile.locates _ _ hshorter hfault
      rw [String.toList_ofList] at hboundary
      have hplace := hboundary.shift (happend.symm ▸ htext)
      rw [happend] at hplace
      exact fun _ => ⟨hcause, hplace⟩
  · next fault hpath hfault =>
      have hlocates := hcompile.locates _ _ hshorter hfault
      cases fault with
      | path cause position => exact absurd rfl (hpath cause position)
      | unsupported cause => exact fun _ => hlocates
      | _ => cases hlocates

theorem sound_rightSide (hcompile : Compiles whole good compile) (hlt : text.length < whole.length)
    (hoperand : operand.WellFormed) (operator : Operator) (refers : Bool) :
    SoundParse whole (rightSide compile operand operator) text refers (filterNoted good refers) := by
  rw [rightSide.eq_def]
  split
  · exact (sound_between hoperand _).parse_filter refers
  · exact (sound_inList hoperand _).parse_filter refers
  · exact (sound_regexFilter hoperand).parse_filter refers
  · next _ hbetween hlist hregex =>
    have hoperator : operator.TakesString := by
      cases operator with
      | between negated => exact (hbetween negated rfl).elim
      | isIn negated => exact (hlist negated rfl).elim
      | regex => exact (hregex rfl).elim
      | _ => trivial
    refine soundParse_peek? ?_
    split
    · split
      · exact (sound_stringFilter hoperand hoperator).parse_filter refers
      split
      · exact (sound_numberFilter hoperand _).parse_filter refers
      split
      · exact sound_referenceFilter hcompile hlt hoperand _ refers
      · exact (sound_keywordFilter hoperand _).parse_filter refers
    · exact (sound_keywordFilter hoperand _).parse_filter refers

theorem sound_predicate (hcompile : Compiles whole good compile) (hlt : text.length < whole.length) (refers : Bool) :
    SoundParse whole (predicate compile) text refers (filterNoted good refers) := by
  rw [predicate]
  refine sound_operand.parse_bind fun operand _ hfirst hoperand => ?_
  refine sound_skipBlank.parse_bind fun _ _ hsecond _ => soundParse_peek? ?_
  split
  · exact soundParse_pure ⟨.of_leaf rfl hoperand, (Bool.or_false refers).symm⟩
  · refine sound_operator.parse_bind fun operator _ hthird _ => sound_skipBlank.parse_bind fun _ _ hfourth _ => ?_
    exact sound_rightSide hcompile (by omega) hoperand _ refers

/-- A connective is two characters long. -/
theorem sound_connective? :
    Sound whole connective? text fun found rest => found.isSome = true → rest.length + 2 ≤ text.length := by
  rw [connective?]
  refine sound_rest ?_
  split
  · next rest =>
      have hrun : (advance 2).run ⟨byteLength whole, '&' :: '&' :: rest, 0⟩ = .ok () ⟨byteLength whole, rest, 0⟩ := by
        simp
      exact sound_bind_of_run hrun (List.suffix_append ['&', '&'] rest) (sound_pure fun _ => Nat.le_refl _)
  · next rest =>
      have hrun : (advance 2).run ⟨byteLength whole, '|' :: '|' :: rest, 0⟩ = .ok () ⟨byteLength whole, rest, 0⟩ := by
        simp
      exact sound_bind_of_run hrun (List.suffix_append ['|', '|'] rest) (sound_pure fun _ => Nat.le_refl _)
  · exact sound_pure nofun

/-- Terms take a step for each parenthesis that they open and the filter within takes another; chains take two for the
two characters of each connective. What a chain begins with has been noted before. -/
theorem sound_filters (hcompile : Compiles whole good compile) (fuel : Nat) :
    (∀ {text} refers, text.length < whole.length → 2 * text.length + 2 ≤ fuel →
        SoundParse whole (filter compile fuel) text refers (filterNoted good refers)) ∧
      (∀ {text} refers, text.length < whole.length → 2 * text.length + 1 ≤ fuel →
        SoundParse whole (filterTerm compile fuel) text refers (filterNoted good refers)) ∧
      ∀ {text left} refers, left.Fits good → text.length < whole.length → 2 * text.length + 1 ≤ fuel →
        SoundParse whole (filterChain compile fuel left) text (refers || left.refers) (filterNoted good refers) := by
  induction fuel with
  | zero => exact ⟨fun _ _ h => by omega, fun _ _ h => by omega, fun _ _ _ h => by omega⟩
  | succ fuel ih =>
      obtain ⟨hfilter, hterm, hchain⟩ := ih
      refine ⟨fun refers hlt hfuel => ?_, fun refers hlt hfuel => ?_, fun {_ left} refers hleft hlt hfuel => ?_⟩
      · rw [filter]
        refine (hterm refers hlt (by omega)).bind fun left _ rest hle hleft => ?_
        obtain ⟨hleft, rfl⟩ := hleft
        exact hchain refers hleft (by omega) (by omega)
      · rw [filterTerm]
        refine sound_skipBlank.parse_bind fun _ _ _ _ => soundParse_ifEat '(' (fun rest hrest => ?_) fun _ _ => ?_
        · refine (hfilter refers (by omega) (by omega)).bind fun inner _ _ _ hinner => ?_
          refine sound_skipBlank.parse_bind fun _ _ _ _ => ?_
          exact (sound_expect ')').parse_bind fun _ _ _ _ => soundParse_pure hinner
        · exact sound_predicate hcompile (by omega) refers
      · rw [filterChain]
        refine sound_skipBlank.parse_bind fun _ _ _ _ => ?_
        refine sound_connective?.parse_bind fun connective rest _ hconnective => ?_
        cases connective with
        | none => exact soundParse_pure ⟨hleft, rfl⟩
        | some connective =>
            have hpassed := hconnective rfl
            refine (hterm (refers || left.refers) (by omega) (by omega)).bind fun right _ _ _ hright => ?_
            obtain ⟨hright, rfl⟩ := hright
            rw [Bool.or_assoc]
            exact hchain refers (hleft.group hright connective) (by omega) (by omega)

/-- The segment is well formed, and its paths are good. -/
abbrev segmentFits (good : Path → Prop) : Segment → List Char → Prop := fun found _ => found.Fits good

abbrev segmentNoted (good : Path → Prop) (refers : Bool) : Segment → Bool → List Char → Prop := fun found noted _ =>
  found.Fits good ∧ noted = (refers || found.refers)

theorem sound_filterSegment (hcompile : Compiles whole good compile) (hlt : text.length < whole.length)
    (refers : Bool) : SoundParse whole (filterSegment compile) text refers (segmentNoted good refers) := by
  rw [filterSegment]
  refine soundParse_get fun _ => ?_
  refine ((sound_filters hcompile _).1 refers hlt (Nat.le_refl _)).bind fun _ _ _ _ hfound => ?_
  exact soundParse_pure hfound

/-! ### Segments -/

theorem sound_dottedIndex : Sound whole dottedIndex text (segmentFits good) := by
  rw [dottedIndex]
  refine sound_get fun htext => (sound_eat '-').bind fun _ _ _ _ => sound_skipDigits.bind fun _ _ _ _ => ?_
  refine sound_textFrom fun found => ?_
  split
  · exact sound_pure (.of_plain rfl trivial)
  · split
    · exact sound_failAt htext trivial
    · exact sound_pure (.of_plain rfl (HashedName.isHashed_ofText _))

theorem sound_functionCall (name : String) : Sound whole (functionCall name) text (segmentFits good) := by
  rw [functionCall]
  refine sound_parentheses.bind fun _ _ _ _ => ?_
  split
  · exact sound_pure (.of_plain rfl trivial)
  · exact sound_unsupported trivial

theorem eq_cons_of_head? {c : Char} (hhead : (text.head? == some c) = true) : ∃ rest, text = c :: rest := by
  cases text with
  | nil => cases hhead
  | cons first text => exact ⟨text, by simpa using hhead⟩

theorem sound_childName (deep : Bool) : Sound whole (childName deep) text (segmentFits good) := by
  rw [childName]
  refine sound_peek? ?_
  split
  · next hstar =>
      obtain ⟨rest, rfl⟩ := eq_cons_of_head? hstar
      exact sound_advance_one (by decide) (sound_pure (.of_plain rfl trivial))
  split
  · exact sound_pure (.of_plain rfl trivial)
  split
  · exact sound_dottedIndex
  · refine sound_name.bind fun name _ _ _ => sound_peek? ?_
    split
    · exact sound_functionCall name
    · exact sound_pure (.of_plain rfl (HashedName.isHashed_ofText name))

theorem sound_separator {c : Char} {rest : List Char} (hlow : c.toNat < 0x80) (slash : Bool) :
    Sound whole (separator slash) (c :: rest) (ShorterThan (rest.length + 1)) := by
  rw [separator]
  refine sound_advance_one hlow ?_
  split
  · exact sound_pure (Nat.lt_succ_self _)
  · refine sound_ifEat '.' (fun found hfound => sound_rest ?_) fun found hle => sound_pure (Nat.lt_succ_of_le hle)
    split
    · next hprefix =>
        obtain ⟨left, rfl⟩ := List.isPrefixOf_iff_prefix.mp hprefix
        have hrun : (advance 4).run ⟨byteLength whole, '[' :: '*' :: ']' :: '.' :: left, 0⟩ =
            .ok () ⟨byteLength whole, left, 0⟩ := by simp
        have hlength : left.length ≤ ("[*].".toList ++ left).length := (List.suffix_append _ left).length_le
        exact sound_bind_of_run hrun (List.suffix_append ['[', '*', ']', '.'] left)
          (sound_pure (Nat.lt_succ_of_lt (Nat.lt_of_le_of_lt hlength hfound)))
    · exact sound_pure (Nat.lt_succ_of_lt hfound)

/-- Something has been passed of a text of this length, and what it gives, if anything, is well formed. -/
abbrev passesFitting (good : Path → Prop) (length : Nat) : Option Segment → List Char → Prop := fun found rest =>
  rest.length < length ∧ ∀ segment ∈ found, segment.Fits good

theorem forall_mem_some {segment : Segment} (hsegment : segment.Fits good) :
    ∀ found ∈ some segment, found.Fits good := by
  rintro _ ⟨⟩
  exact hsegment

theorem sound_child {c : Char} {rest : List Char} (hlow : c.toNat < 0x80) :
    Sound whole child (c :: rest) (passesFitting good (rest.length + 1)) := by
  rw [child]
  refine sound_peek? ((sound_separator hlow _).bind fun deep left _ hleft => sound_atEnd ?_)
  split
  · split
    · exact sound_pure ⟨hleft, nofun⟩
    · exact sound_fail_bind trivial
  · have hchild : Sound whole (childName deep) left (segmentFits good) := sound_childName deep
    refine hchild.bind fun found _ hle hfound => sound_pure ?_
    exact ⟨Nat.lt_of_le_of_lt hle hleft, forall_mem_some hfound⟩

/-- Every further name is behind a comma. -/
theorem sound_moreNames {fuel : Nat} (hfuel : text.length < fuel) : Sound whole (moreNames fuel) text anyEnd := by
  induction fuel generalizing text with
  | zero => exact absurd hfuel (Nat.not_lt_zero _)
  | succ fuel ih =>
      rw [moreNames]
      refine sound_skipBlank.bind fun _ _ hfirst _ => ?_
      refine sound_ifEat ',' (fun rest hrest => ?_) fun _ _ => sound_pure trivial
      refine sound_skipBlank.bind fun _ _ hsecond _ => sound_string.bind fun name _ hthird _ => ?_
      exact (ih (by omega)).bind fun _ _ _ _ => sound_pure trivial

theorem sound_quotedNames : Sound whole quotedNames text (segmentFits good) := by
  rw [quotedNames]
  refine sound_string.bind fun first rest _ _ => sound_get fun _ => ?_
  refine (sound_moreNames (Nat.lt_succ_self _)).bind fun others _ _ _ => ?_
  split
  · exact sound_pure (.of_plain rfl (HashedName.isHashed_ofText first))
  · next hne =>
      have hlength : 2 ≤ (first :: others).length := Nat.succ_le_succ (List.length_pos_iff.mpr hne)
      exact sound_pure (.of_plain rfl hlength)

section Brackets

variable {α β : Type}

/-- An outcome as wanted, or a fault that is none of reading itself. -/
abbrev Gives (post : α → Prop) (result : Except PathFault α) : Prop :=
  Meets post PathFault.Arises result

theorem gives_mapM {read : β → Except PathFault α} (hread : ∀ part, Gives (fun _ => True) (read part))
    (parts : List β) :
    Gives (fun values => values.length = parts.length) (parts.mapM read) := by
  induction parts with
  | nil => exact rfl
  | cons part parts ih =>
      rw [List.mapM_cons]
      exact (hread part).bind fun a _ => ih.bind fun others hlength => congrArg (· + 1) hlength

theorem gives_indexOfText (part : List Char) : Gives (fun _ => True) (indexOfText part) := by
  rw [indexOfText]
  split
  · exact trivial
  · exact trivial

theorem gives_boundOfText (missing : Int) (part : Option (List Char)) :
    Gives (fun _ => True) (boundOfText missing part) := by
  cases part with
  | none => exact trivial
  | some part =>
      rw [boundOfText]
      split
      · exact trivial
      · exact gives_indexOfText part

theorem gives_ofBounds (good : Path → Prop) (parts : List (List Char)) :
    Gives (fun segment => segment.Fits good) (Segment.ofBounds parts) := by
  rw [Segment.ofBounds]
  split
  · exact trivial
  · refine (gives_boundOfText _ _).bind fun start _ => (gives_boundOfText _ _).bind fun last _ => ?_
    refine (gives_boundOfText _ _).bind fun step _ => ?_
    split
    · exact trivial
    · next hstep =>
        split
        · exact trivial
        · next horder => exact .of_plain rfl (And.intro (Int.lt_of_not_ge hstep) horder)

theorem gives_ofBrackets (good : Path → Prop) (text : String) :
    Gives (fun segment => segment.Fits good) (Segment.ofBrackets text) := by
  rw [Segment.ofBrackets]
  split
  · exact trivial
  split
  · refine (gives_mapM gives_indexOfText _).map fun positions hlength => .of_plain rfl ?_
    have hpos := List.length_pos_iff.mpr (List.splitOn_ne_nil ',' (Text.trimChars text.toList))
    rwa [← hlength] at hpos
  split
  · exact gives_ofBounds good _
  · split
    · exact .of_plain rfl trivial
    · exact .of_plain rfl (HashedName.isHashed_ofText _)

end Brackets

/-- What the scanner reads on its own mentions no paths. -/
theorem Sound.parse_segment {scan : Scan Segment} (hscan : Sound whole scan text (segmentFits fun _ => False))
    (refers : Bool) : SoundParse whole (liftM scan) text refers (segmentNoted good refers) := by
  refine hscan.parse fun found _ _ hfound => ⟨hfound.mono fun _ => False.elim, ?_⟩
  rw [hfound.refers_eq_false, Bool.or_false]

theorem sound_bracketContent (hcompile : Compiles whole good compile) (hlt : text.length < whole.length)
    (refers : Bool) : SoundParse whole (bracketContent compile) text refers (segmentNoted good refers) := by
  rw [bracketContent]
  refine soundParse_peek? ?_
  split
  · next hmark =>
      obtain ⟨rest, rfl⟩ := eq_cons_of_head? hmark
      exact soundParse_advance_one (by decide) (sound_filterSegment hcompile (Nat.lt_of_succ_lt hlt) refers)
  split
  · next hstar =>
      obtain ⟨rest, rfl⟩ := eq_cons_of_head? hstar
      exact soundParse_advance_one (by decide) (soundParse_pure ⟨.of_plain rfl trivial, (Bool.or_false refers).symm⟩)
  split
  · exact sound_quotedNames.parse_segment refers
  split
  · refine sound_name.parse_bind fun name _ _ _ => ?_
    split
    · exact soundParse_pure ⟨.of_plain rfl (Nat.le_refl 1), (Bool.or_false refers).symm⟩
    · exact soundParse_pure ⟨.of_plain rfl (HashedName.isHashed_ofText name), (Bool.or_false refers).symm⟩
  · refine soundParse_get fun htext => (sound_textUntil (by decide)).parse_bind fun found _ _ _ => ?_
    have hgives := gives_ofBrackets (fun _ => False) found
    split
    · next segment hsegment =>
        rw [hsegment] at hgives
        exact (sound_pure hgives).parse_segment refers
    · next cause herror =>
        rw [herror] at hgives
        exact (sound_failAt htext hgives).parse_segment refers

theorem sound_bracket (hcompile : Compiles whole good compile) (hle : text.length ≤ whole.length) (refers : Bool) :
    SoundParse whole (bracket compile) text refers fun found noted rest =>
      rest.length < text.length ∧ found.Fits good ∧ noted = (refers || found.refers) := by
  rw [bracket]
  refine (sound_expect '[').parse_bind fun _ _ _ hfirst => sound_skipBlank.parse_bind fun _ _ hsecond _ => ?_
  refine (sound_bracketContent hcompile (by omega) refers).bind fun segment _ _ hthird hsegment => ?_
  refine sound_skipBlank.parse_bind fun _ _ hfourth _ => (sound_expect ']').parse_bind fun _ _ hfifth _ => ?_
  exact soundParse_pure ⟨by omega, hsegment⟩

/-- As `passesFitting`, with references noted. -/
abbrev passesNoted (good : Path → Prop) (refers : Bool) (length : Nat) : Option Segment → Bool → List Char → Prop :=
  fun found noted rest => passesFitting good length found rest ∧ noted = (refers || found.any Segment.refers)

theorem sound_segment (hcompile : Compiles whole good compile) (hle : text.length ≤ whole.length)
    (hne : text.isEmpty = false) (first refers : Bool) :
    SoundParse whole (segment compile first) text refers (passesNoted good refers text.length) := by
  rw [segment]
  refine soundParse_get fun htext => soundParse_peek? ?_
  cases text with
  | nil => cases hne
  | cons c rest =>
      simp only [List.head?_cons]
      split
      · next hmark =>
          have hlow : c.toNat < 0x80 := by
            simp only [Bool.or_eq_true, decide_eq_true_eq] at hmark
            rcases hmark with rfl | rfl <;> decide
          have hchild : Sound whole child (c :: rest) (passesFitting (fun _ => False) (rest.length + 1)) :=
            sound_child hlow
          refine hchild.parse fun found left _ hfound => ?_
          have hnone : found.any Segment.refers = false := by
            cases found with
            | none => rfl
            | some segment => exact (hfound.2 segment rfl).refers_eq_false
          refine ⟨⟨hfound.1, fun segment hmem => (hfound.2 segment hmem).mono fun _ => False.elim⟩, ?_⟩
          rw [hnone, Bool.or_false]
      split
      · refine (sound_bracket hcompile hle refers).bind fun _ _ _ _ hbracket => soundParse_pure ?_
        exact ⟨⟨hbracket.1, forall_mem_some hbracket.2.1⟩, hbracket.2.2⟩
      split
      · next hmark =>
          have hlow : c.toNat < 0x80 := by rw [hmark]; decide
          refine soundParse_advance_one hlow ?_
          refine (sound_filterSegment hcompile hle refers).bind fun _ _ _ hrest hsegment => ?_
          exact soundParse_pure ⟨⟨Nat.lt_succ_of_le hrest, forall_mem_some hsegment.1⟩, hsegment.2⟩
      split
      · refine sound_name.parse_bind fun name _ _ hshorter => soundParse_pure ⟨⟨hshorter, forall_mem_some ?_⟩, ?_⟩
        · exact .of_plain rfl (HashedName.isHashed_ofText name)
        · exact (Bool.or_false refers).symm
      · have hfault : Sound whole (unexpectedAt ⟨byteLength whole, c :: rest, 0⟩ .unexpectedEnd) (c :: rest)
            fun (_ : Option Segment) _ => False := sound_unexpectedAt htext trivial
        exact hfault.parse fun _ _ _ hfalse => hfalse.elim

/-- All segments fit, and it is noted whether there are references in any of them. -/
abbrev segmentsNoted (good : Path → Prop) (refers : Bool) : List Segment → Bool → List Char → Prop :=
  fun found noted _ => (∀ segment ∈ found, segment.Fits good) ∧ noted = (refers || found.any Segment.refers)

/-- Every segment takes at least one character. -/
theorem sound_segments (hcompile : Compiles whole good compile) {fuel : Nat} (hfuel : text.length < fuel)
    (hle : text.length ≤ whole.length) (first refers : Bool) :
    SoundParse whole (segments compile fuel first) text refers (segmentsNoted good refers) := by
  induction fuel generalizing text first refers with
  | zero => exact absurd hfuel (Nat.not_lt_zero _)
  | succ fuel ih =>
      rw [segments]
      refine sound_skipBlank.parse_bind fun _ _ hfirst _ => soundParse_atEnd ?_
      split
      · exact soundParse_pure ⟨nofun, (Bool.or_false refers).symm⟩
      · next hend =>
          have hne := Bool.eq_false_iff.mpr hend
          refine (sound_segment hcompile (by omega) hne first refers).bind fun found _ _ _ hpassed => ?_
          obtain ⟨⟨hshorter, hfound⟩, rfl⟩ := hpassed
          cases found with
          | none =>
              rw [Option.any_none, Bool.or_false]
              exact ih (by omega) (by omega) first refers
          | some segment =>
              refine (ih (by omega) (by omega) false _).bind fun others _ _ _ hothers => soundParse_pure ?_
              obtain ⟨hothers, rfl⟩ := hothers
              exact ⟨List.forall_mem_cons.mpr ⟨hfound segment rfl, hothers⟩, Bool.or_assoc ..⟩

theorem sound_wholePath (hcompile : Compiles whole good compile) :
    SoundParse whole (wholePath compile) whole false (segmentsNoted good false) := by
  rw [wholePath]
  refine sound_skipBlank.parse_bind fun _ _ hfirst _ => (sound_eat '$').parse_bind fun _ _ hsecond _ => ?_
  refine soundParse_get fun _ => ?_
  exact sound_segments hcompile (Nat.lt_succ_self _) (Nat.le_trans hsecond hfirst) true false

end Filters

end Scan

namespace Path

variable {dropNulls : Bool}

/-- A path in a filter is shorter than the text around it, and compiles with one level less. -/
def IsInner (dropNulls : Bool) (fuel : Nat) (text : String) (inner : Path) : Prop :=
  inner.text.length < text.length ∧ compileWith dropNulls fuel inner.text = .ok inner

/-- What compiling a text gives: well-formed segments with inner paths that have been noted, or a fault of the text. -/
def Ends (dropNulls : Bool) (fuel : Nat) (text : String) : Except Fault Path → Prop
  | .ok path =>
    (∀ segment ∈ path.segments, segment.Fits (IsInner dropNulls fuel text)) ∧
      path.refers = path.segments.any Segment.refers
  | .error fault => fault.Locates text.toList

theorem ends_compileWith {fuel : Nat} {text : String} (hfuel : text.length < fuel) :
    Ends dropNulls (fuel - 1) text (compileWith dropNulls fuel text) := by
  induction fuel generalizing text with
  | zero => exact absurd hfuel (Nat.not_lt_zero _)
  | succ fuel ih =>
      have hempty : IsBoundary text.toList 0 := ⟨[], text.toList, rfl, rfl⟩
      rw [compileWith, Nat.add_sub_cancel]
      split
      · exact ⟨trivial, hempty⟩
      split
      · next segment hsingle =>
          have hnone : segment.refers = false := (Segment.fits_of_ofSingle? _ hsingle).refers_eq_false
          refine ⟨List.forall_mem_singleton.mpr (Segment.fits_of_ofSingle? _ hsingle), ?_⟩
          rw [segments, List.any_cons, hnone]
          rfl
      have hcompile : Scan.Compiles text.toList (IsInner dropNulls fuel text) (compileWith dropNulls fuel) := by
        constructor <;> intro inner outcome hshorter houtcome <;> rw [String.length_toList] at hshorter
        · rw [← text_of_compileWith houtcome] at hshorter houtcome
          exact ⟨hshorter, houtcome⟩
        · have hends : Ends dropNulls (fuel - 1) inner (compileWith dropNulls fuel inner) := ih (by omega)
          rwa [houtcome] at hends
      have hends := Scan.sound_wholePath hcompile List.suffix_rfl
      change Scan.ParseEnds _ _ _ (Scan.wholePath (compileWith dropNulls fuel) (Parser.ofString text)) at hends
      split
      · next hrun =>
          rw [hrun] at hends
          obtain ⟨-, -, -, hsegments, hnoted⟩ := hends
          exact ⟨hsegments, hnoted.trans (Bool.false_or _)⟩
      · next hrun =>
          rw [hrun] at hends
          exact hends

theorem ends_compile (text : String) (dropNulls : Bool) :
    Ends dropNulls text.length text (compile text dropNulls) := ends_compileWith (Nat.lt_succ_self _)

/-- **Compiling ends, and its faults name places in the text.** Compiling any text gives a path, or refuses the text as
having no meaning, or gives a fault at a position between two of its characters. It never runs out of steps and never
cuts out a piece of the text that starts or ends inside a character, also where paths in filters are compiled. -/
theorem compile_locates (text : String) (dropNulls : Bool) :
    (∃ path, compile text dropNulls = .ok path) ∨
      (∃ cause, compile text dropNulls = .error (.unsupported cause)) ∨
      ∃ cause position, compile text dropNulls = .error (.path cause position) ∧ cause ≠ .insideChar ∧
        cause ≠ .endless ∧ String.Pos.Raw.IsValid text ⟨position⟩ ∧ position ≤ text.utf8ByteSize := by
  cases hcompile : compile text dropNulls with
  | ok path => exact .inl ⟨path, rfl⟩
  | error fault =>
      have hlocates := ends_compile text dropNulls
      rw [hcompile] at hlocates
      cases fault with
      | unsupported cause => exact .inr (.inl ⟨cause, rfl⟩)
      | path cause position =>
          obtain ⟨hcause, front, back, htext, rfl⟩ := hlocates
          obtain ⟨hinside, hendless⟩ := hcause.ne
          have hvalid : String.Pos.Raw.IsValid text ⟨byteLength front⟩ := by
            rw [String.Pos.Raw.isValid_iff_exists_append]
            refine ⟨String.ofList front, String.ofList back, ?_, ?_⟩
            · rw [← String.ofList_append, ← htext, String.ofList_toList]
            · rw [String.rawEndPos, utf8ByteSize_ofList]
          exact .inr (.inr ⟨cause, _, rfl, hinside, hendless, hvalid, hvalid.le_rawEndPos⟩)
      | _ => cases hlocates

end Path

end TreeQuery
