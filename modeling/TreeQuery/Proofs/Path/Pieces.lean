import TreeQuery.Proofs.Path.Segments

/-!
# Pieces of a path

How each form of a segment is read, apart from filters: names, indices, wildcards and functions behind points
and slashes, and what stands in brackets.
-/

namespace TreeQuery

variable {rest : List Char} {length : Nat}

/-! ### Behind a separator -/

def isSeparator (c : Char) : Bool := c == '.' || c == '/'

theorem Scan.run_segment_child {mark : Char} (hmark : isSeparator mark = true) (compile : String → Except Fault Path)
    (first refers : Bool) :
    (segment compile first).run ⟨⟨length, mark :: rest, 0⟩, refers⟩ =
      Parser.afterScan refers (child.run ⟨length, mark :: rest, 0⟩) := by
  simp only [isSeparator, Bool.or_eq_true, beq_iff_eq] at hmark
  rcases hmark with rfl | rfl <;> simp [segment]

theorem Scan.run_child {mark c : Char} (hmark : isSeparator mark = true) (hc : c ≠ '.') :
    child.run ⟨length, mark :: c :: rest, 0⟩ = (some <$> childName false).run ⟨length, c :: rest, 0⟩ := by
  have heat : (eat '.').run ⟨length, c :: rest, 0⟩ = .ok false ⟨length, c :: rest, 0⟩ :=
    run_eat_of_head?_ne (by simpa using hc)
  simp only [isSeparator, Bool.or_eq_true, beq_iff_eq] at hmark
  rcases hmark with rfl | rfl <;> simp [child, separator, heat]

theorem Scan.run_child_deep {c : Char} (hstar : c = '[' → ¬['*', ']', '.'] <+: rest) :
    child.run ⟨length, '.' :: '.' :: c :: rest, 0⟩ = (some <$> childName true).run ⟨length, c :: rest, 0⟩ := by
  have heat : (eat '.').run ⟨length, '.' :: c :: rest, 0⟩ = .ok true ⟨length, c :: rest, 0⟩ := run_eat_self '.'
  have hprefix : ¬('[' = c ∧ ['*', ']', '.'] <+: rest) := fun h => hstar h.1.symm h.2
  simp [child, separator, heat, hprefix]

/-- Two points and a wildcard in brackets, which adds nothing. -/
theorem Scan.run_child_star {c : Char} :
    child.run ⟨length, '.' :: '.' :: '[' :: '*' :: ']' :: '.' :: c :: rest, 0⟩ =
      (some <$> childName true).run ⟨length, c :: rest, 0⟩ := by
  have heat : (eat '.').run ⟨length, '.' :: '[' :: '*' :: ']' :: '.' :: c :: rest, 0⟩ =
      .ok true ⟨length, '[' :: '*' :: ']' :: '.' :: c :: rest, 0⟩ := run_eat_self '.'
  simp [child, separator, heat]

def startsName (c : Char) : Bool := c == '\\' || (isNameChar c && !c.isDigit)

theorem exists_escapeName {name : List Char} (hne : name ≠ []) :
    ∃ c tail, escapeName name = c :: tail ∧ startsName c = true := by
  cases name with
  | nil => exact absurd rfl hne
  | cons c name =>
      rw [escapeName]
      split
      · exact ⟨'\\', _, rfl, by decide⟩
      · next hdigit =>
          rw [escapeNameChar]
          split
          · next hname => exact ⟨c, _, rfl, by simp [startsName, hname, hdigit]⟩
          · exact ⟨'\\', _, rfl, by decide⟩

theorem startsName_facts {c : Char} (hstarts : startsName c = true) :
    c ≠ '*' ∧ c ≠ '[' ∧ c ≠ '.' ∧ c ≠ '-' ∧ c.isDigit = false := by
  have hne : ∀ x, startsName x = false → c ≠ x := by
    rintro x hx rfl
    rw [hx] at hstarts
    cases hstarts
  refine ⟨hne _ (by decide), hne _ (by decide), hne _ (by decide), hne _ (by decide), ?_⟩
  simp only [startsName, Bool.or_eq_true, beq_iff_eq, Bool.and_eq_true, Bool.not_eq_true'] at hstarts
  rcases hstarts with rfl | hname
  · decide
  · exact hname.2

theorem Scan.run_childName_name (length : Nat) {name : List Char} (hne : name ≠ []) (hrest : EndsSegment rest)
    (deep : Bool) :
    (childName deep).run ⟨length, escapeName name ++ rest, 0⟩ =
      .ok (.property (String.ofList name) deep) ⟨length, rest, 0⟩ := by
  obtain ⟨c, tail, hescape, hstarts⟩ := exists_escapeName hne
  obtain ⟨hstar, hbracket, -, hminus, hdigit⟩ := startsName_facts hstarts
  have hname := run_name length hne hrest.endsName
  have hparenthesis : rest.head? ≠ some '(' := hrest.head?_ne (by decide)
  rw [hescape, List.cons_append] at hname ⊢
  simp [childName, hstar, hbracket, hminus, hdigit, hname, hparenthesis]

theorem reads_property {mark : Char} (hmark : isSeparator mark = true) {name : List Char} (hne : name ≠ [])
    (hrest : EndsSegment rest) :
    Reads (mark :: escapeName name) (.property (String.ofList name) false) rest := by
  intro compile first length refers
  obtain ⟨c, tail, hescape, hstarts⟩ := exists_escapeName hne
  have hname := Scan.run_childName_name length hne hrest false
  rw [hescape, List.cons_append] at hname
  rw [hescape, List.cons_append, List.cons_append, Scan.run_segment_child hmark,
    Scan.run_child hmark (startsName_facts hstarts).2.2.1, run_map, hname]
  rfl

theorem reads_deep {name : List Char} (hne : name ≠ []) (hrest : EndsSegment rest) :
    Reads ('.' :: '.' :: escapeName name) (.property (String.ofList name) true) rest := by
  intro compile first length refers
  obtain ⟨c, tail, hescape, hstarts⟩ := exists_escapeName hne
  have hname := Scan.run_childName_name length hne hrest true
  have hbracket : c = '[' → ¬['*', ']', '.'] <+: tail ++ rest := fun h => absurd h (startsName_facts hstarts).2.1
  rw [hescape, List.cons_append] at hname
  rw [hescape]
  simp only [List.cons_append]
  rw [Scan.run_segment_child (by decide), Scan.run_child_deep hbracket, run_map, hname]
  rfl

theorem reads_starDeep {name : List Char} (hne : name ≠ []) (hrest : EndsSegment rest) :
    Reads ('.' :: '.' :: '[' :: '*' :: ']' :: '.' :: escapeName name) (.property (String.ofList name) true) rest := by
  intro compile first length refers
  obtain ⟨c, tail, hescape, hstarts⟩ := exists_escapeName hne
  have hname := Scan.run_childName_name length hne hrest true
  rw [hescape, List.cons_append] at hname
  rw [hescape]
  simp only [List.cons_append]
  rw [Scan.run_segment_child (by decide), Scan.run_child_star, run_map, hname]
  rfl

/-! ### Wildcards and functions -/

theorem reads_children {mark : Char} (hmark : isSeparator mark = true) :
    Reads [mark, '*'] (.wildcard false false) rest := by
  intro compile first length refers
  simp only [List.cons_append, List.nil_append]
  rw [Scan.run_segment_child hmark, Scan.run_child hmark (by decide)]
  simp [Scan.childName]

theorem reads_descendants : Reads ['.', '.', '*'] (.wildcard true false) rest := by
  intro compile first length refers
  simp only [List.cons_append, List.nil_append]
  rw [Scan.run_segment_child (by decide), Scan.run_child_deep fun h => absurd h (by decide)]
  simp [Scan.childName]

/-- Two points before a bracket that is no wildcard. -/
theorem reads_objects (hstar : ¬['*', ']', '.'] <+: rest) : Reads ['.', '.'] (.wildcard true true) ('[' :: rest) := by
  intro compile first length refers
  simp only [List.cons_append, List.nil_append]
  rw [Scan.run_segment_child (by decide), Scan.run_child_deep fun _ => hstar]
  simp [Scan.childName]

theorem Scan.run_parentheses : parentheses.run ⟨length, '(' :: ')' :: rest, 0⟩ = .ok () ⟨length, rest, 0⟩ := by
  have hopen : (expect '(').run ⟨length, '(' :: ')' :: rest, 0⟩ = .ok () ⟨length, ')' :: rest, 0⟩ := run_expect '('
  have hskip : skipBlank.run ⟨length, ')' :: rest, 0⟩ = .ok () ⟨length, ')' :: rest, 0⟩ := rfl
  simp [parentheses, hopen, hskip, run_expect]

theorem reads_function {name : List Char} {function : PathFunction} (hne : name ≠ []) (hplain : escapeName name = name)
    (hfunction : PathFunction.ofName? (String.ofList name) = some function) :
    Reads ('.' :: (name ++ ['(', ')'])) (.function function) rest := by
  intro compile first length refers
  have hends : EndsName ('(' :: ')' :: rest) := endsName_cons.mpr (by decide)
  have hname := Scan.run_name length hne hends
  obtain ⟨c, tail, hescape, hstarts⟩ := exists_escapeName hne
  obtain ⟨hstar, hbracket, hpoint, hminus, hdigit⟩ := startsName_facts hstarts
  rw [hplain] at hname hescape
  rw [List.cons_append, List.append_assoc, Scan.run_segment_child (by decide)]
  simp only [List.cons_append, List.nil_append]
  rw [hescape, List.cons_append] at hname ⊢
  rw [Scan.run_child (by decide) hpoint, run_map]
  rw [← hescape] at hname
  simp [Scan.childName, Scan.functionCall, hstar, hminus, hdigit, hname, Scan.run_parentheses, hfunction]

/-! ### Indices -/

/-- What digits behind a separator are: an index, or a name if they are too many. -/
def dottedSegment (digits : List Char) : Segment :=
  match wordOfChars? digits with
  | some value => .index value
  | none => .property (String.ofList digits) false

theorem takeWhile_isDigit {digits : List Char} (hdigits : ∀ c ∈ digits, c.isDigit = true) (hrest : EndsSegment rest) :
    (digits ++ rest).takeWhile Char.isDigit = digits ∧ (digits ++ rest).dropWhile Char.isDigit = rest := by
  rw [List.takeWhile_append_of_pos hdigits, List.dropWhile_append_of_pos hdigits]
  cases rest with
  | nil => simp
  | cons c rest =>
      have hc := (startsSegment_facts (endsSegment_cons.mp hrest)).2.2.1
      simp [hc]

theorem Scan.run_skipDigits (length : Nat) {digits : List Char} (hne : digits ≠ [])
    (hdigits : ∀ c ∈ digits, c.isDigit = true) (hrest : EndsSegment rest) :
    skipDigits.run ⟨length, digits ++ rest, 0⟩ = .ok () ⟨length, rest, 0⟩ := by
  obtain ⟨-, hdrop⟩ := takeWhile_isDigit hdigits hrest
  obtain ⟨c, digits, rfl⟩ := List.exists_cons_of_ne_nil hne
  have hc : c.isDigit = true := hdigits c (by simp)
  simp only [List.cons_append] at hdrop ⊢
  simp [skipDigits, hc, Scanner.moveTo, hdrop]

theorem Scan.run_dottedIndex (length : Nat) {sign digits : List Char} (hsign : sign = [] ∨ sign = ['-'])
    (hne : digits ≠ []) (hdigits : ∀ c ∈ digits, c.isDigit = true) (hrest : EndsSegment rest) :
    dottedIndex.run ⟨length, sign ++ (digits ++ rest), 0⟩ = .ok (dottedSegment (sign ++ digits)) ⟨length, rest, 0⟩ := by
  have hskip := run_skipDigits length hne hdigits hrest
  have heat : ∃ found, (eat '-').run ⟨length, sign ++ (digits ++ rest), 0⟩ = .ok found ⟨length, digits ++ rest, 0⟩ := by
    rcases hsign with rfl | rfl
    · refine ⟨false, run_eat_of_head?_ne ?_⟩
      obtain ⟨c, digits, rfl⟩ := List.exists_cons_of_ne_nil hne
      rintro ⟨⟩
      exact absurd (hdigits '-' (by simp)) (by decide)
    · exact ⟨true, run_eat_self '-'⟩
  have hminus : sign ++ digits ≠ ['-'] := by
    rcases hsign with rfl | rfl
    · rintro rfl
      exact absurd (hdigits '-' (by simp)) (by decide)
    · simpa using hne
  obtain ⟨found, heat⟩ := heat
  rw [← List.append_assoc] at heat ⊢
  cases hword : wordOfChars? (sign ++ digits) <;>
    simp [dottedIndex, dottedSegment, heat, hskip, hminus, hword, -List.append_assoc]

/-- An index behind a separator, or a name of too many digits. -/
theorem reads_dotted {mark : Char} (hmark : isSeparator mark = true) (sign digits : List Char)
    (hsign : sign = [] ∨ sign = ['-']) (hne : digits ≠ []) (hdigits : ∀ c ∈ digits, c.isDigit = true)
    (hrest : EndsSegment rest) :
    Reads (mark :: (sign ++ digits)) (dottedSegment (sign ++ digits)) rest := by
  intro compile first length refers
  have hdotted := Scan.run_dottedIndex length hsign hne hdigits hrest
  obtain ⟨c, tail, htext, hc⟩ : ∃ c tail, sign ++ digits = c :: tail ∧ (c.isDigit || c == '-') = true := by
    cases digits with
    | nil => exact absurd rfl hne
    | cons c digits =>
        rcases hsign with rfl | rfl
        · exact ⟨c, digits, rfl, by rw [hdigits c (by simp)]; rfl⟩
        · exact ⟨'-', c :: digits, rfl, rfl⟩
  have hstar : c ≠ '*' ∧ c ≠ '.' := by
    constructor
    · rintro rfl
      exact absurd hc (by decide)
    · rintro rfl
      exact absurd hc (by decide)
  rw [List.cons_append, Scan.run_segment_child hmark]
  rw [← List.append_assoc, htext, List.cons_append] at hdotted
  rw [htext, List.cons_append, Scan.run_child hmark hstar.2, run_map]
  have hbool : c.isDigit = true ∨ c = '-' := by simpa using hc
  simp [Scan.childName, hstar, hbool, hdotted]

theorem reads_index {mark : Char} (hmark : isSeparator mark = true) {index : Int} (hindex : InWord index)
    (hrest : EndsSegment rest) : Reads (mark :: (toString index).toList) (.index index) rest := by
  have hsegment : dottedSegment (toString index).toList = .index index := by
    rw [dottedSegment, wordOfChars?_toString hindex]
  rw [← hsegment, toList_toString_int]
  have hdigits : ∀ n, ∀ c ∈ Nat.toDigits 10 n, c.isDigit = true := fun n =>
    List.all_eq_true.mp (all_isDigit_toDigits n)
  split
  · exact reads_dotted hmark [] _ (.inl rfl) Nat.toDigits_ne_nil (hdigits _) hrest
  · exact reads_dotted hmark ['-'] _ (.inr rfl) Nat.toDigits_ne_nil (hdigits _) hrest

end TreeQuery
