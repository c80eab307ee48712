import TreeQuery.Proofs.Path.Brackets
import TreeQuery.Proofs.Query.Properties

/-!
# Spellings

The path language apart from filters: every segment may be written in several ways, and whatever ways are chosen,
one after another, the path compiles to the segments.
-/

namespace TreeQuery

/-- What is written in brackets for a segment. -/
inductive InBrackets : List Char → Segment → Prop
  | name {word : Char × String} (hquote : isQuote word.1 = true) :
      InBrackets (quotedName word) (.property word.2 false)
  | names {first second : Char × String} {others : List (Char × String)}
      (hquotes : ∀ word ∈ first :: second :: others, isQuote word.1 = true) :
      InBrackets (joinNames first (second :: others)) (.properties ((first :: second :: others).map Prod.snd))
  | index {index : Int} (hindex : InWord index) : InBrackets (intText index) (.index index)
  | indices {first second : Int} {others : List Int} (hwords : ∀ index ∈ first :: second :: others, InWord index) :
      InBrackets (joinInts ',' (first :: second :: others)) (.indices (first :: second :: others))
  | last : InBrackets ['l', 'a', 's', 't'] (.indices [-1])
  | slice {start last step : Int} (hstart : InWord start) (hlast : InWord last) (hstep : InWord step)
      (hpositive : 0 < step) (horder : ¬(0 ≤ last ∧ last < start)) :
      InBrackets (joinInts ':' [start, last, step]) (.slice start last step)

def functionWords : List (List Char × PathFunction) :=
  [(['s', 'i', 'z', 'e'], .size), (['l', 'e', 'n', 'g', 't', 'h'], .size), (['t', 'y', 'p', 'e'], .kind),
    (['f', 'l', 'o', 'o', 'r'], .floor), (['m', 'a', 'x'], .max), (['m', 'i', 'n'], .min),
    (['k', 'e', 'y', 'S', 'e', 't'], .keySet)]

/-- What may be written for a segment wherever it stands. -/
inductive Spelled : List Char → Segment → Prop
  | name {mark : Char} (hmark : isSeparator mark = true) {name : String} (hne : name ≠ "") :
      Spelled (mark :: escapeName name.toList) (.property name false)
  | deep {name : String} (hne : name ≠ "") : Spelled ('.' :: '.' :: escapeName name.toList) (.property name true)
  | starDeep {name : String} (hne : name ≠ "") :
      Spelled ('.' :: '.' :: '[' :: '*' :: ']' :: '.' :: escapeName name.toList) (.property name true)
  | index {mark : Char} (hmark : isSeparator mark = true) {index : Int} (hindex : InWord index) :
      Spelled (mark :: intText index) (.index index)
  | children {mark : Char} (hmark : isSeparator mark = true) : Spelled [mark, '*'] (.wildcard false false)
  | bracketChildren : Spelled ['[', '*', ']'] (.wildcard false false)
  | descendants : Spelled ['.', '.', '*'] (.wildcard true false)
  | brackets {content : List Char} {segment : Segment} (hcontent : InBrackets content segment) :
      Spelled ('[' :: (content ++ [']'])) segment
  | function {name : List Char} {function : PathFunction} (hname : (name, function) ∈ functionWords) :
      Spelled ('.' :: (name ++ ['(', ')'])) (.function function)

/-- A text of spellings one after another. Two points stand for the deep objects where brackets follow. -/
inductive SpelledPath : List Char → List Segment → Prop
  | nil : SpelledPath [] []
  | cons {piece rest : List Char} {segment : Segment} {segments : List Segment} (hpiece : Spelled piece segment)
      (hrest : SpelledPath rest segments) : SpelledPath (piece ++ rest) (segment :: segments)
  | objects {content rest : List Char} {segment : Segment} {segments : List Segment}
      (hcontent : InBrackets content segment) (hrest : SpelledPath rest segments) :
      SpelledPath ('.' :: '.' :: '[' :: (content ++ ']' :: rest)) (.wildcard true true :: segment :: segments)

variable {rest : List Char}

theorem InBrackets.reads {content : List Char} {segment : Segment} (hcontent : InBrackets content segment) :
    Reads ('[' :: (content ++ [']'])) segment rest := by
  cases hcontent with
  | @name word hquote =>
      have hreads : Reads ('[' :: (joinNames word [] ++ [']'])) (namesSegment word.2 []) rest := reads_names hquote (by simp)
      rwa [joinNames, List.flatMap_nil, List.append_nil] at hreads
  | names hquotes =>
      obtain ⟨hfirst, hothers⟩ := List.forall_mem_cons.mp hquotes
      exact reads_names hfirst hothers
  | @index index hindex =>
      refine reads_integers (intText_ne_nil index) (fun c hmem => ?_) (ofBrackets_intText hindex)
      simp [isListChar, isIntChar_of_mem_intText c hmem]
  | @indices first second others hwords =>
      have hne := List.ne_nil_of_mem (mem_joinInts_cons_cons ',' first second others)
      exact reads_integers hne (isListChar_joinInts (by decide) _) (ofBrackets_commas hwords)
  | last => exact reads_last
  | @slice start last step hstart hlast hstep hpositive horder =>
      have hne := List.ne_nil_of_mem (mem_joinInts_cons_cons ':' start last [step])
      exact reads_integers hne (isListChar_joinInts (by decide) _)
        (ofBrackets_colons hstart hlast hstep hpositive horder)

theorem head?_ne_star {content : List Char} (hcontent : ∀ c ∈ content, isListChar c = true) :
    content.head? ≠ some '*' := by
  intro hhead
  exact absurd (hcontent '*' (List.mem_of_head? hhead)) (by decide)

theorem InBrackets.head?_ne {content : List Char} {segment : Segment} (hcontent : InBrackets content segment) :
    content.head? ≠ some '*' := by
  have hquoted : ∀ {word : Char × String} {text : List Char}, isQuote word.1 = true →
      (quotedName word ++ text).head? ≠ some '*' := by
    intro word text hquote
    simpa [quotedName] using (isQuote_facts hquote).2.2
  cases hcontent with
  | @name word hquote =>
      have hname : (quotedName word ++ []).head? ≠ some '*' := hquoted hquote
      rwa [List.append_nil] at hname
  | names hquotes => exact hquoted (List.forall_mem_cons.mp hquotes).1
  | index hindex =>
      exact head?_ne_star fun c hmem => by simp [isListChar, isIntChar_of_mem_intText c hmem]
  | indices hwords => exact head?_ne_star (isListChar_joinInts (by decide) _)
  | last => decide
  | slice _ _ _ _ _ => exact head?_ne_star (isListChar_joinInts (by decide) _)

theorem Spelled.starts {piece : List Char} {segment : Segment} (hpiece : Spelled piece segment) :
    ∃ c tail, piece = c :: tail ∧ startsSegment c = true := by
  have hseparator : ∀ {mark}, isSeparator mark = true → startsSegment mark = true := fun hmark => by
    rw [startsSegment, Bool.or_eq_true]
    exact .inl hmark
  cases hpiece with
  | name hmark _ => exact ⟨_, _, rfl, hseparator hmark⟩
  | index hmark _ => exact ⟨_, _, rfl, hseparator hmark⟩
  | children hmark => exact ⟨_, _, rfl, hseparator hmark⟩
  | _ => exact ⟨_, _, rfl, by decide⟩

theorem reads_functionWord {name : List Char} {function : PathFunction} (hname : (name, function) ∈ functionWords) :
    Reads ('.' :: (name ++ ['(', ')'])) (.function function) rest := by
  have hword : name ≠ [] ∧ escapeName name = name ∧ PathFunction.ofName? (String.ofList name) = some function := by
    simp only [functionWords, List.mem_cons, Prod.mk.injEq, List.not_mem_nil, or_false] at hname
    rcases hname with h | h | h | h | h | h | h <;> obtain ⟨rfl, rfl⟩ := h <;> decide
  exact reads_function hword.1 hword.2.1 hword.2.2

theorem Spelled.reads {piece : List Char} {segment : Segment} (hpiece : Spelled piece segment)
    (hrest : EndsSegment rest) : Reads piece segment rest := by
  have hchars : ∀ {name : String}, name ≠ "" → name.toList ≠ [] := fun hne h => hne (String.toList_eq_nil_iff.mp h)
  cases hpiece with
  | @name mark hmark name hne => simpa using reads_property hmark (hchars hne) hrest
  | @deep name hne => simpa using reads_deep (hchars hne) hrest
  | @starDeep name hne => simpa using reads_starDeep (hchars hne) hrest
  | index hmark hindex => exact reads_index hmark hindex hrest
  | children hmark => exact reads_children hmark
  | bracketChildren => exact reads_bracketChildren
  | descendants => exact reads_descendants
  | brackets hcontent => exact hcontent.reads
  | function hname => exact reads_functionWord hname

theorem SpelledPath.pathText {text : List Char} {segments : List Segment} (htext : SpelledPath text segments) :
    PathText text segments := by
  induction htext with
  | nil => exact .nil
  | @cons piece rest segment segments hpiece _ ih =>
      have hreads := hpiece.reads ih.endsSegment
      obtain ⟨c, tail, rfl, hstarts⟩ := hpiece.starts
      exact .cons hstarts hreads ih
  | @objects content rest segment segments hcontent _ ih =>
      -- The points are a piece of their own, read in front of the brackets after them.
      have hbrackets : PathText ('[' :: (content ++ [']']) ++ rest) (segment :: segments) :=
        .cons (by decide) hcontent.reads ih
      have hstar : ¬['*', ']', '.'] <+: content ++ ']' :: rest := by
        rintro ⟨tail, heq⟩
        cases content with
        | nil => simp at heq
        | cons c content => exact hcontent.head?_ne (congrArg some (List.cons.inj heq).1.symm)
      have hpoints : Reads ['.', '.'] (.wildcard true true) ('[' :: (content ++ ']' :: rest)) := reads_objects hstar
      have htext : '[' :: (content ++ [']']) ++ rest = '[' :: (content ++ ']' :: rest) := by simp
      rw [htext] at hbrackets
      exact .cons (by decide) hpoints hbrackets

/-- **Spellings are read back.** A path compiles to its segments however they are spelled, with or without a dollar
sign in front. -/
theorem Path.compile_spelled {text : List Char} {segments : List Segment} (htext : SpelledPath text segments)
    (dropNulls : Bool) :
    Path.compile (String.ofList ('$' :: text)) dropNulls =
        .ok (.mk (String.ofList ('$' :: text)) segments false dropNulls) ∧
      (segments ≠ [] →
        Path.compile (String.ofList text) dropNulls = .ok (.mk (String.ofList text) segments false dropNulls)) :=
  ⟨htext.pathText.compile_dollar dropNulls, fun hne => htext.pathText.compile hne dropNulls⟩

theorem spelledPath_objects : SpelledPath
    ['.', '.', '[', '\'', 'i', 't', '\\', '\'', 's', '\'', ']', '/', '-', '7', '.', 'm', 'a', 'x', '(', ')']
    [.wildcard true true, .property "it's" false, .index (-7), .function .max] := by
  have hfunction : SpelledPath ['.', 'm', 'a', 'x', '(', ')'] [.function .max] :=
    .cons (@Spelled.function ['m', 'a', 'x'] .max (by simp [functionWords])) .nil
  have hseven : intText (-7) = ['-', '7'] := by rw [intText, toList_toString_int]; decide
  have hindex : Spelled ['/', '-', '7'] (.index (-7)) := hseven ▸ .index (by decide) (by decide)
  have hquoted : quotedName ('\'', "it's") = ['\'', 'i', 't', '\\', '\'', 's', '\''] := by decide
  have hname : InBrackets ['\'', 'i', 't', '\\', '\'', 's', '\''] (.property "it's" false) :=
    hquoted ▸ .name (by decide)
  exact .objects hname (.cons hindex hfunction)

/-- The deep objects, a quoted name, an index from the end and a function. -/
theorem Path.compile_spelled_objects :
    Path.compile "$..['it\\'s']/-7.max()" true = .ok (.mk "$..['it\\'s']/-7.max()"
        [.wildcard true true, .property "it's" false, .index (-7), .function .max] false true) ∧
      Path.compile "..['it\\'s']/-7.max()" false = .ok (.mk "..['it\\'s']/-7.max()"
        [.wildcard true true, .property "it's" false, .index (-7), .function .max] false false) :=
  ⟨(compile_spelled spelledPath_objects true).1, (compile_spelled spelledPath_objects false).2 (by simp)⟩

/-! ### Paths of names -/

/-- A path of names with points between them. -/
def dottedNames (names : List String) : List Char := names.flatMap fun name => '.' :: escapeName name.toList

theorem spelledPath_dottedNames {names : List String} (hnames : ∀ name ∈ names, name ≠ "") :
    SpelledPath (dottedNames names) (Segment.ofNames names) := by
  induction names with
  | nil => exact .nil
  | cons name names ih =>
      obtain ⟨hname, hnames⟩ := List.forall_mem_cons.mp hnames
      exact .cons (.name (by decide) hname) (ih hnames)

theorem Path.compile_dottedNames (names : List String) (hnames : ∀ name ∈ names, name ≠ "") (dropNulls : Bool) :
    compile (String.ofList ('$' :: dottedNames names)) dropNulls =
      .ok (.mk (String.ofList ('$' :: dottedNames names)) (Segment.ofNames names) false dropNulls) :=
  (spelledPath_dottedNames hnames).pathText.compile_dollar dropNulls

end TreeQuery
