import TreeQuery.Proofs.Path.Pieces

/-!
# Brackets

What stands between brackets: a wildcard, quoted names, the word for the last item, and integers with commas or
colons between them.
-/

namespace TreeQuery

variable {rest : List Char} {length : Nat}

theorem reads_bracket (content : List Char) {segment : Segment}
    (hblank : ∀ c ∈ (content ++ ']' :: rest).head?, Text.isBlank c = false)
    (hcontent : ∀ compile length refers,
      (Scan.bracketContent compile).run ⟨⟨length, content ++ ']' :: rest, 0⟩, refers⟩ =
        .ok segment ⟨⟨length, ']' :: rest, 0⟩, refers⟩) :
    Reads ('[' :: (content ++ [']'])) segment rest := by
  intro compile first length refers
  have hopen : (Scan.expect '[').run ⟨length, '[' :: (content ++ ']' :: rest), 0⟩ =
      .ok () ⟨length, content ++ ']' :: rest, 0⟩ := Scan.run_expect '['
  have hbefore : Scan.skipBlank.run ⟨length, content ++ ']' :: rest, 0⟩ =
      .ok () ⟨length, content ++ ']' :: rest, 0⟩ := Scan.run_skipBlank hblank
  have hafter : Scan.skipBlank.run ⟨length, ']' :: rest, 0⟩ = .ok () ⟨length, ']' :: rest, 0⟩ := rfl
  have htext : '[' :: (content ++ [']']) ++ rest = '[' :: (content ++ ']' :: rest) := by simp
  rw [htext]
  simp [Scan.segment, Scan.bracket, hopen, hbefore, hcontent, hafter, Scan.run_expect]

theorem head?_cons_forall {p : Char → Prop} {c : Char} {text : List Char} (hc : p c) : ∀ x ∈ (c :: text).head?, p x := by
  simpa using hc

theorem reads_bracketChildren : Reads ['[', '*', ']'] (.wildcard false false) rest := by
  have hblank : ∀ c ∈ (['*'] ++ ']' :: rest).head?, Text.isBlank c = false := head?_cons_forall (by decide)
  exact reads_bracket ['*'] hblank fun _ _ _ => by simp [Scan.bracketContent]

theorem reads_last : Reads ['[', 'l', 'a', 's', 't', ']'] (.indices [-1]) rest := by
  have hblank : ∀ c ∈ (['l', 'a', 's', 't'] ++ ']' :: rest).head?, Text.isBlank c = false :=
    head?_cons_forall (by decide)
  have hends : EndsName (']' :: rest) := endsName_cons.mpr (by decide)
  have hne : ['l', 'a', 's', 't'] ≠ [] := by simp
  have hstarts : isNameChar 'l' = true := by decide
  have hescape : escapeName ['l', 'a', 's', 't'] = ['l', 'a', 's', 't'] := by decide
  refine reads_bracket ['l', 'a', 's', 't'] hblank fun compile length refers => ?_
  have hname : Scan.name.run ⟨length, escapeName ['l', 'a', 's', 't'] ++ ']' :: rest, 0⟩ =
      .ok "last" ⟨length, ']' :: rest, 0⟩ := Scan.run_name length hne hends
  rw [hescape] at hname
  simp only [List.cons_append, List.nil_append] at hname ⊢
  simp [Scan.bracketContent, isQuote, hstarts, hname]

/-! ### Quoted names -/

def quotedName (word : Char × String) : List Char := word.1 :: (quoteText word.1 word.2.toList ++ [word.1])

def joinNames (first : Char × String) (others : List (Char × String)) : List Char :=
  quotedName first ++ others.flatMap (',' :: quotedName ·)

theorem isQuote_facts {c : Char} (hquote : isQuote c = true) : Text.isBlank c = false ∧ c ≠ '?' ∧ c ≠ '*' := by
  simp only [isQuote, Bool.or_eq_true, beq_iff_eq] at hquote
  rcases hquote with rfl | rfl <;> decide

theorem Scan.run_quotedName {word : Char × String} (hquote : isQuote word.1 = true) :
    string.run ⟨length, quotedName word ++ rest, 0⟩ = .ok word.2 ⟨length, rest, 0⟩ := by
  have htext : quotedName word ++ rest = word.1 :: (quoteText word.1 word.2.toList ++ word.1 :: rest) := by
    simp [quotedName]
  rw [htext, run_string hquote, String.ofList_toList]

theorem Scan.run_moreNames {words : List (Char × String)} (hquotes : ∀ word ∈ words, isQuote word.1 = true)
    {fuel : Nat} (hfuel : words.length < fuel) :
    (moreNames fuel).run ⟨length, words.flatMap (',' :: quotedName ·) ++ ']' :: rest, 0⟩ =
      .ok (words.map Prod.snd) ⟨length, ']' :: rest, 0⟩ := by
  induction words generalizing fuel with
  | nil =>
      obtain ⟨fuel, rfl⟩ := exists_eq_succ_of_lt hfuel
      rfl
  | cons word words ih =>
      obtain ⟨fuel, rfl⟩ := exists_eq_succ_of_lt hfuel
      obtain ⟨hquote, hothers⟩ := List.forall_mem_cons.mp hquotes
      have hrest := ih hothers (Nat.lt_of_succ_lt_succ hfuel)
      generalize hothersText : words.flatMap (',' :: quotedName ·) ++ ']' :: rest = others at hrest
      have htext : (word :: words).flatMap (',' :: quotedName ·) ++ ']' :: rest = ',' :: (quotedName word ++ others) := by
        simp [← hothersText]
      have hblank : skipBlank.run ⟨length, ',' :: (quotedName word ++ others), 0⟩ =
          .ok () ⟨length, ',' :: (quotedName word ++ others), 0⟩ := rfl
      -- A name opens with its quote, so nothing is skipped after the comma.
      have hskip : skipBlank.run ⟨length, quotedName word ++ others, 0⟩ =
          .ok () ⟨length, quotedName word ++ others, 0⟩ := run_skipBlank (by simpa [quotedName] using (isQuote_facts hquote).1)
      rw [htext]
      simp [moreNames, hblank, run_eat_self, hskip, run_quotedName hquote, hrest]

def namesSegment (first : String) : List String → Segment
  | [] => .property first false
  | others => .properties (first :: others)

theorem length_le_flatMap_quotedName (words : List (Char × String)) :
    words.length ≤ (words.flatMap (',' :: quotedName ·)).length := by
  induction words with
  | nil => exact Nat.le_refl 0
  | cons word words ih =>
      rw [List.flatMap_cons, List.length_append, List.length_cons, List.length_cons]
      omega

theorem Scan.run_quotedNames {word : Char × String} {words : List (Char × String)}
    (hquote : isQuote word.1 = true) (hquotes : ∀ word ∈ words, isQuote word.1 = true) :
    quotedNames.run ⟨length, joinNames word words ++ ']' :: rest, 0⟩ =
      .ok (namesSegment word.2 (words.map Prod.snd)) ⟨length, ']' :: rest, 0⟩ := by
  have hfuel : words.length < (words.flatMap (',' :: quotedName ·) ++ ']' :: rest).length + 1 := by
    have := length_le_flatMap_quotedName words
    rw [List.length_append]
    omega
  rw [joinNames, List.append_assoc]
  simp only [quotedNames, EStateM.run_bind, run_quotedName hquote, EStateM.run_get, run_moreNames hquotes hfuel]
  cases words <;> rfl

theorem reads_names {word : Char × String} {words : List (Char × String)} (hquote : isQuote word.1 = true)
    (hquotes : ∀ word ∈ words, isQuote word.1 = true) :
    Reads ('[' :: (joinNames word words ++ [']'])) (namesSegment word.2 (words.map Prod.snd)) rest := by
  obtain ⟨hblank, hfilter, hstar⟩ := isQuote_facts hquote
  have hhead : (joinNames word words ++ ']' :: rest).head? = some word.1 := rfl
  refine reads_bracket _ (by rw [hhead]; simpa using hblank) fun compile length refers => ?_
  simp only [Scan.bracketContent, EStateM.run_bind, Scan.run_parse, Parser.afterScan_ok, Scan.run_peek?, hhead]
  rw [if_neg (by simpa using hfilter), if_neg (by simpa using hstar), if_pos (by simpa using hquote)]
  rw [Scan.run_parse, Scan.run_quotedNames hquote hquotes]
  rfl

/-! ### Integers -/

def isIntChar (c : Char) : Bool := c.isDigit || c == '-'

def intText (value : Int) : List Char := (toString value).toList

theorem isIntChar_of_mem_intText {value : Int} : ∀ c ∈ intText value, isIntChar c = true := by
  intro c hmem
  rw [intText, toList_toString_int] at hmem
  have hdigits : ∀ n, ∀ c ∈ Nat.toDigits 10 n, isIntChar c = true := fun n c hmem => by
    simp [isIntChar, List.all_eq_true.mp (all_isDigit_toDigits n) c hmem]
  split at hmem
  · exact hdigits _ c hmem
  · rcases List.mem_cons.mp hmem with rfl | hmem
    · decide
    · exact hdigits _ c hmem

theorem intText_ne_nil (value : Int) : intText value ≠ [] := by
  rw [intText, toList_toString_int]
  split
  · exact Nat.toDigits_ne_nil
  · simp

def isListChar (c : Char) : Bool := isIntChar c || c == ',' || c == ':'

theorem isListChar_facts {c : Char} (hc : isListChar c = true) :
    Scan.isRaw c = true ∧ Text.isWhiteSpace c = false ∧ Text.isBlank c = false ∧ c ≠ '?' ∧ c ≠ '*' ∧
      isQuote c = false ∧ (c == '\\' || (isNameChar c && !c.isDigit)) = false := by
  have hmem : c ∈ ['0', '1', '2', '3', '4', '5', '6', '7', '8', '9'] ++ ['-', ',', ':'] := by
    simp only [isListChar, isIntChar, Bool.or_eq_true, beq_iff_eq] at hc
    rcases hc with ((hdigit | rfl) | rfl) | rfl
    · exact List.mem_append_left _ (mem_digits_of_isDigit hdigit)
    · decide
    · decide
    · decide
  simp only [List.cons_append, List.nil_append, List.mem_cons, List.not_mem_nil, or_false] at hmem
  rcases hmem with rfl | rfl | rfl | rfl | rfl | rfl | rfl | rfl | rfl | rfl | rfl | rfl | rfl <;> decide

theorem trimChars_eq_self {text : List Char} (htext : ∀ c ∈ text, Text.isWhiteSpace c = false) :
    Text.trimChars text = text := by
  have hdrop : ∀ {text : List Char}, (∀ c ∈ text, Text.isWhiteSpace c = false) →
      text.dropWhile Text.isWhiteSpace = text := by
    intro text htext
    cases text with
    | nil => rfl
    | cons c text => exact List.dropWhile_cons_of_neg (by simp [htext c (by simp)])
  rw [Text.trimChars, hdrop htext, hdrop (by simpa using htext), List.reverse_reverse]

/-- Integers in brackets are read by what the text between the brackets means. -/
theorem reads_integers {content : List Char} {segment : Segment} (hne : content ≠ [])
    (hcontent : ∀ c ∈ content, isListChar c = true)
    (hsegment : Segment.ofBrackets (String.ofList content) = .ok segment) :
    Reads ('[' :: (content ++ [']'])) segment rest := by
  cases content with
  | nil => exact absurd rfl hne
  | cons c content =>
      obtain ⟨-, -, hblank, hfilter, hstar, hquote, hname⟩ := isListChar_facts (hcontent c (by simp))
      refine reads_bracket (c :: content) (by simpa using hblank) fun compile length refers => ?_
      have htext : (Scan.textUntil ']').run ⟨length, (c :: content) ++ ']' :: rest, 0⟩ =
          .ok (String.ofList (c :: content)) ⟨length, ']' :: rest, 0⟩ :=
        Scan.run_textUntil (by decide) fun c hmem => (isListChar_facts (hcontent c hmem)).1
      have hhead : ((c :: content) ++ ']' :: rest).head? = some c := rfl
      have hletter : ¬(c = '\\' ∨ isNameChar c = true ∧ c.isDigit = false) := by simpa using hname
      rw [List.cons_append] at htext
      generalize String.ofList (c :: content) = text at htext hsegment
      simp only [Scan.bracketContent, EStateM.run_bind, Scan.run_parse, Parser.afterScan_ok, Scan.run_peek?, hhead]
      simp [hfilter, hstar, hquote, hletter, htext, hsegment]

theorem trimChars_intText (value : Int) : Text.trimChars (intText value) = intText value :=
  trimChars_eq_self fun c hmem => (isListChar_facts (by simp [isListChar, isIntChar_of_mem_intText c hmem])).2.1

theorem not_mem_intText {value : Int} {c : Char} (hc : isIntChar c = false) : c ∉ intText value := by
  intro hmem
  have hint := isIntChar_of_mem_intText c hmem
  rw [hc] at hint
  cases hint

def joinInts (mark : Char) (values : List Int) : List Char := [mark].intercalate (values.map intText)

theorem joinInts_cons_cons (mark : Char) (value next : Int) (values : List Int) :
    joinInts mark (value :: next :: values) = intText value ++ mark :: joinInts mark (next :: values) := by
  simp [joinInts, List.intercalate]

theorem mem_joinInts {mark c : Char} {values : List Int} (hmem : c ∈ joinInts mark values) :
    c = mark ∨ isIntChar c = true := by
  induction values with
  | nil => simp [joinInts, List.intercalate] at hmem
  | cons value values ih =>
      cases values with
      | nil =>
          have hvalue : joinInts mark [value] = intText value := by simp [joinInts, List.intercalate]
          exact .inr (isIntChar_of_mem_intText c (hvalue ▸ hmem))
      | cons next values =>
          rw [joinInts_cons_cons, List.mem_append, List.mem_cons] at hmem
          rcases hmem with hvalue | rfl | hothers
          · exact .inr (isIntChar_of_mem_intText c hvalue)
          · exact .inl rfl
          · exact ih hothers

theorem isListChar_joinInts {mark : Char} (hmark : isListChar mark = true) (values : List Int) :
    ∀ c ∈ joinInts mark values, isListChar c = true := by
  intro c hmem
  rcases mem_joinInts hmem with rfl | hint
  · exact hmark
  · simp [isListChar, hint]

theorem splitOn_joinInts {mark : Char} (hmark : isIntChar mark = false) {values : List Int} (hne : values ≠ []) :
    (joinInts mark values).splitOn mark = values.map intText := by
  refine List.splitOn_intercalate mark (fun text hmem => ?_) (by simpa using hne)
  obtain ⟨value, -, rfl⟩ := List.mem_map.mp hmem
  exact not_mem_intText hmark

theorem ofBrackets_intText {index : Int} (hindex : InWord index) :
    Segment.ofBrackets (String.ofList (intText index)) = .ok (.index index) := by
  have hempty : (intText index).isEmpty = false := by simpa using intText_ne_nil index
  have hcomma : ',' ∉ intText index := not_mem_intText (by decide)
  have hcolon : ':' ∉ intText index := not_mem_intText (by decide)
  have hword : wordOfChars? (intText index) = some index := wordOfChars?_toString hindex
  simp [Segment.ofBrackets, trimChars_intText, hempty, hcomma, hcolon, hword]

theorem trimChars_joinInts {mark : Char} (hmark : isListChar mark = true) (values : List Int) :
    Text.trimChars (joinInts mark values) = joinInts mark values :=
  trimChars_eq_self fun c hmem => (isListChar_facts (isListChar_joinInts hmark values c hmem)).2.1

theorem mem_joinInts_cons_cons (mark : Char) (first second : Int) (others : List Int) :
    mark ∈ joinInts mark (first :: second :: others) := by
  simp [joinInts_cons_cons]

theorem ofBrackets_commas {first second : Int} {others : List Int}
    (hwords : ∀ value ∈ first :: second :: others, InWord value) :
    Segment.ofBrackets (String.ofList (joinInts ',' (first :: second :: others))) =
      .ok (.indices (first :: second :: others)) := by
  have hcomma := mem_joinInts_cons_cons ',' first second others
  have hempty : (joinInts ',' (first :: second :: others)).isEmpty = false := by
    simpa using List.ne_nil_of_mem hcomma
  have hcontains : (joinInts ',' (first :: second :: others)).contains ',' = true := by simpa using hcomma
  simp only [Segment.ofBrackets, String.toList_ofList, trimChars_joinInts (show isListChar ',' = true by decide), hempty,
    hcontains, splitOn_joinInts (show isIntChar ',' = false by decide) (List.cons_ne_nil first (second :: others))]
  rw [if_neg (by decide), if_pos trivial, mapM_map_eq_pure]
  · rfl
  · intro value hmem
    rw [indexOfText, trimChars_intText, intText, wordOfChars?_toString (hwords value hmem)]
    rfl

theorem ofBrackets_colons {start last step : Int} (hstart : InWord start) (hlast : InWord last) (hstep : InWord step)
    (hpositive : 0 < step) (horder : ¬(0 ≤ last ∧ last < start)) :
    Segment.ofBrackets (String.ofList (joinInts ':' [start, last, step])) = .ok (.slice start last step) := by
  have hcolon := mem_joinInts_cons_cons ':' start last [step]
  have hempty : (joinInts ':' [start, last, step]).isEmpty = false := by simpa using List.ne_nil_of_mem hcolon
  have hcontains : (joinInts ':' [start, last, step]).contains ':' = true := by simpa using hcolon
  have hcomma : (joinInts ':' [start, last, step]).contains ',' = false := by
    rw [Bool.eq_false_iff, Ne, List.contains_iff_mem]
    intro hmem
    exact absurd (mem_joinInts hmem) (by decide)
  have hnonempty : ∀ value, (intText value).isEmpty = false := fun value => by simpa using intText_ne_nil value
  have hword : ∀ {value}, InWord value → wordOfChars? (intText value) = some value := wordOfChars?_toString
  simp only [Segment.ofBrackets, String.toList_ofList, trimChars_joinInts (show isListChar ':' = true by decide), hempty,
    hcontains, hcomma, splitOn_joinInts (show isIntChar ':' = false by decide) (List.cons_ne_nil start [last, step])]
  simp [Segment.ofBounds, boundOfText, indexOfText, trimChars_intText, hnonempty, hword hstart, hword hlast, hword hstep,
    Int.not_le.mpr hpositive, horder, bind, Except.bind, pure, Except.pure]

end TreeQuery
