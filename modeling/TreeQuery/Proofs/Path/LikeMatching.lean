import TreeQuery.Path.Like

/-!
# Matching LIKE patterns

A pattern describes the texts that hold its fragments one after another, with anything between them. The matcher
looks for each fragment as early as it can, which loses nothing. But it tests the end of the text apart from what it
found before, so that the last fragment may lie over an earlier one: the text must only be long enough for all of
them.
-/

namespace TreeQuery.LikePattern

/-- The text between single percent signs, read from the left; a doubled percent sign is a plain one. -/
inductive Splits : List Char → List (List Char) → Prop
  | nil : Splits [] [[]]
  | doubled {rest fragment : List Char} {parts : List (List Char)} :
      Splits rest (fragment :: parts) → Splits ('%' :: '%' :: rest) (('%' :: fragment) :: parts)
  | wildcard {rest : List Char} {parts : List (List Char)} :
      rest.head? ≠ some '%' → Splits rest parts → Splits ('%' :: rest) ([] :: parts)
  | char {c : Char} {rest fragment : List Char} {parts : List (List Char)} :
      c ≠ '%' → Splits rest (fragment :: parts) → Splits (c :: rest) ((c :: fragment) :: parts)

/-- A text of fragments in order, with gaps between them that may be empty. -/
inductive Spaced : List (List Char) → List Char → Prop
  | last (fragment : List Char) : Spaced [fragment] fragment
  | cons (fragment gap : List Char) {text : List Char} {parts : List (List Char)} :
      Spaced parts text → Spaced (fragment :: parts) (fragment ++ gap ++ text)

variable {fragment first last text rest : List Char} {parts middle : List (List Char)}

/-! ### Fragments -/

theorem Splits.splitAux_eq {pattern : List Char} (hsplits : Splits pattern parts) (current : List Char) :
    ∃ fragment others, parts = fragment :: others ∧
      splitAux current pattern = (current.reverse ++ fragment) :: others := by
  induction hsplits generalizing current with
  | nil => exact ⟨[], [], rfl, by simp [splitAux]⟩
  | @doubled rest fragment others _ ih =>
      obtain ⟨_, _, heq, hsplit⟩ := ih ('%' :: current)
      obtain ⟨rfl, rfl⟩ := List.cons.inj heq
      exact ⟨_, _, rfl, by simp [splitAux, hsplit]⟩
  | @wildcard rest others hhead _ ih =>
      obtain ⟨fragment, others, rfl, hsplit⟩ := ih []
      refine ⟨[], _, rfl, ?_⟩
      rw [splitAux]
      · simp [hsplit]
      · intro rest' heq
        simp [heq] at hhead
  | @char c rest fragment others hne _ ih =>
      obtain ⟨_, _, heq, hsplit⟩ := ih (c :: current)
      obtain ⟨rfl, rfl⟩ := List.cons.inj heq
      refine ⟨_, _, rfl, ?_⟩
      rw [splitAux]
      · simp [hsplit]
      · intro rest' heq
        simp [heq] at hne
      · intro heq
        exact hne heq

theorem exists_splits (current pattern : List Char) :
    ∃ fragment others, Splits pattern (fragment :: others) := by
  fun_induction splitAux current pattern with
  | case1 current rest ih =>
      obtain ⟨fragment, others, hsplits⟩ := ih
      exact ⟨_, _, .doubled hsplits⟩
  | case2 current rest hrest ih =>
      obtain ⟨fragment, others, hsplits⟩ := ih
      refine ⟨_, _, .wildcard (fun hhead => ?_) hsplits⟩
      obtain ⟨rest', rfl⟩ := List.head?_eq_some_iff.mp hhead
      exact hrest rest' rfl
  | case3 current c rest _ hne ih =>
      obtain ⟨fragment, others, hsplits⟩ := ih
      exact ⟨_, _, .char hne hsplits⟩
  | case4 => exact ⟨_, _, .nil⟩

theorem splits_fragments (pattern : String) : Splits pattern.toList ((fragments pattern).map String.toList) := by
  obtain ⟨fragment, others, hsplits⟩ := exists_splits [] pattern.toList
  obtain ⟨_, _, heq, hsplit⟩ := hsplits.splitAux_eq []
  obtain ⟨rfl, rfl⟩ := List.cons.inj heq
  rw [fragments, hsplit]
  simpa [Function.comp_def] using hsplits

/-! ### Texts of fragments -/

theorem spaced_cons_iff :
    Spaced (first :: parts) text ↔ ∃ tail, text = first ++ tail ∧ Spaced ([] :: parts) tail := by
  constructor
  · intro hspaced
    cases hspaced with
    | last => exact ⟨[], by simp, .last []⟩
    | cons _ gap hspaced => exact ⟨_, by simp, .cons [] gap hspaced⟩
  · rintro ⟨tail, rfl, hspaced⟩
    cases hspaced with
    | last => simpa using Spaced.last first
    | cons _ gap hspaced => simpa using Spaced.cons first gap hspaced

theorem spaced_concat_iff :
    Spaced (first :: (middle ++ [last])) text ↔
      ∃ front gap, Spaced (first :: middle) front ∧ text = front ++ gap ++ last := by
  induction middle generalizing first text with
  | nil =>
      constructor
      · intro hspaced
        cases hspaced with
        | cons _ gap hspaced =>
            cases hspaced with
            | last => exact ⟨first, gap, .last first, rfl⟩
            | cons _ _ hnone => cases hnone
      · rintro ⟨front, gap, hfront, rfl⟩
        cases hfront with
        | last => exact .cons first gap (.last last)
        | cons _ _ hnone => cases hnone
  | cons fragment middle ih =>
      constructor
      · intro hspaced
        cases hspaced with
        | cons _ gap hspaced =>
            obtain ⟨front, gap', hfront, rfl⟩ := ih.mp hspaced
            exact ⟨_, gap', .cons first gap hfront, by simp⟩
      · rintro ⟨front, gap, hfront, rfl⟩
        cases hfront with
        | cons _ gap' hfront =>
            have hspaced := ih.mpr ⟨_, gap, hfront, rfl⟩
            simpa using Spaced.cons first gap' hspaced

theorem Spaced.sublist (hspaced : Spaced parts text) : parts.flatten.Sublist text := by
  induction hspaced with
  | last fragment => simp
  | cons fragment gap _ ih =>
      rw [List.flatten_cons, List.append_assoc]
      exact (List.Sublist.refl fragment).append (ih.trans (List.sublist_append_right gap _))

theorem utf8ByteSize_ofList_cons (c : Char) (text : List Char) :
    (String.ofList (c :: text)).utf8ByteSize =
      (String.ofList [c]).utf8ByteSize + (String.ofList text).utf8ByteSize := by
  rw [← List.singleton_append, String.ofList_append, String.utf8ByteSize_append]

theorem utf8ByteSize_le_of_sublist {shorter longer : List Char} (hsublist : shorter.Sublist longer) :
    (String.ofList shorter).utf8ByteSize ≤ (String.ofList longer).utf8ByteSize := by
  induction hsublist with
  | slnil => exact Nat.le_refl _
  | cons c _ ih =>
      rw [utf8ByteSize_ofList_cons]
      exact Nat.le_add_left_of_le ih
  | @cons_cons shorter longer c _ ih =>
      rw [utf8ByteSize_ofList_cons c shorter, utf8ByteSize_ofList_cons c longer]
      exact Nat.add_le_add_left ih _

/-! ### Looking for fragments -/

theorem dropThrough?_nil (text : List Char) : dropThrough? [] text = some text := by
  cases text <;> rfl

theorem eq_append_of_dropThrough? (hdrop : dropThrough? fragment text = some rest) :
    ∃ before, text = before ++ (fragment ++ rest) := by
  induction text with
  | nil =>
      rw [dropThrough?] at hdrop
      split at hdrop
      · next hempty =>
          cases hdrop
          exact ⟨[], by simpa using hempty⟩
      · cases hdrop
  | cons c text ih =>
      rw [dropThrough?] at hdrop
      split at hdrop
      · next hprefix =>
          cases hdrop
          exact ⟨[], (List.prefix_iff_eq_append.mp (List.isPrefixOf_iff_prefix.mp hprefix)).symm⟩
      · obtain ⟨before, rfl⟩ := ih hdrop
        exact ⟨c :: before, rfl⟩

/-- A fragment is found where it stands first, so no other place of it leaves more of the text. -/
theorem exists_dropThrough? (before fragment rest : List Char) :
    ∃ found, dropThrough? fragment (before ++ (fragment ++ rest)) = some found ∧ rest <:+ found := by
  induction before with
  | nil =>
      cases htext : fragment ++ rest with
      | nil =>
          obtain ⟨rfl, rfl⟩ := List.append_eq_nil_iff.mp htext
          exact ⟨[], rfl, List.nil_suffix⟩
      | cons c text =>
          have hprefix : fragment.isPrefixOf (c :: text) = true :=
            List.isPrefixOf_iff_prefix.mpr (htext ▸ List.prefix_append fragment rest)
          refine ⟨rest, ?_, List.suffix_rfl⟩
          rw [List.nil_append, dropThrough?, if_pos hprefix, ← htext, List.drop_left]
  | cons c before ih =>
      rw [List.cons_append, dropThrough?]
      split
      · refine ⟨_, rfl, ?_⟩
        have hsuffix : rest <:+ c :: (before ++ (fragment ++ rest)) := ⟨c :: (before ++ fragment), by simp⟩
        refine List.suffix_of_suffix_length_le hsuffix (List.drop_suffix _ _) ?_
        simp
        omega
      · exact ih

theorem containsInOrder_filter (parts : List String) (text : List Char) :
    containsInOrder (parts.filter (!·.isEmpty)) text = containsInOrder parts text := by
  induction parts generalizing text with
  | nil => rfl
  | cons fragment parts ih =>
      by_cases hempty : fragment.isEmpty = true
      · have hnil : fragment.toList = [] := by simpa using hempty
        rw [List.filter_cons_of_neg (by simp [hempty]), containsInOrder, hnil, dropThrough?_nil]
        exact ih text
      · rw [List.filter_cons_of_pos (by simp [hempty]), containsInOrder, containsInOrder]
        cases dropThrough? fragment.toList text with
        | none => rfl
        | some rest => exact ih rest

/-- Looking for each fragment as early as possible finds all of them wherever they can be found. -/
theorem containsInOrder_iff (parts : List (List Char)) (text : List Char) :
    containsInOrder (parts.map String.ofList) text = true ↔
      ∃ front, Spaced ([] :: parts) front ∧ front <+: text := by
  induction parts generalizing text with
  | nil =>
      constructor
      · intro _
        exact ⟨[], .last [], List.nil_prefix⟩
      · intro _
        rfl
  | cons fragment parts ih =>
      rw [List.map_cons, containsInOrder, String.toList_ofList]
      constructor
      · intro hcontains
        cases hdrop : dropThrough? fragment text with
        | none => simp [hdrop] at hcontains
        | some rest =>
            rw [hdrop] at hcontains
            obtain ⟨front, hspaced, hfront⟩ := (ih rest).mp hcontains
            obtain ⟨before, rfl⟩ := eq_append_of_dropThrough? hdrop
            refine ⟨[] ++ before ++ (fragment ++ front), ?_, ?_⟩
            · exact .cons [] before (spaced_cons_iff.mpr ⟨front, rfl, hspaced⟩)
            · simpa using hfront
      · rintro ⟨front, hspaced, after, rfl⟩
        cases hspaced with
        | cons _ before hspaced =>
            obtain ⟨tail, rfl, htail⟩ := spaced_cons_iff.mp hspaced
            obtain ⟨found, hdrop, extra, hfound⟩ := exists_dropThrough? before fragment (tail ++ after)
            have htext : [] ++ before ++ (fragment ++ tail) ++ after = before ++ (fragment ++ (tail ++ after)) := by
              simp
            rw [htext, hdrop]
            refine (ih found).mpr ?_
            -- What was skipped in front of an earlier place is part of the gap before the next fragment.
            cases htail with
            | last => exact ⟨[], .last [], List.nil_prefix⟩
            | cons _ gap hnext =>
                refine ⟨[] ++ (extra ++ gap) ++ _, .cons [] (extra ++ gap) hnext, after, ?_⟩
                rw [← hfound]
                simp

/-! ### Whole patterns -/

theorem compile?_of_splits {pattern : String} (hsplits : Splits pattern.toList (first :: (middle ++ [last]))) :
    compile? pattern = some {
      startsWith := nonEmpty? (String.ofList first)
      endsWith := nonEmpty? (String.ofList last)
      contains := (middle.map String.ofList).filter (!·.isEmpty)
      minLength := byteLength (String.ofList first :: String.ofList last ::
        (middle.map String.ofList).filter (!·.isEmpty)) } := by
  obtain ⟨_, _, heq, hsplit⟩ := hsplits.splitAux_eq []
  obtain ⟨rfl, rfl⟩ := List.cons.inj heq
  have hfragments : fragments pattern = String.ofList first :: (middle.map String.ofList ++ [String.ofList last]) := by
    rw [fragments, hsplit]
    simp
  rw [compile?, hfragments]
  cases middle with
  | nil => rfl
  | cons fragment middle =>
      rw [List.map_cons, List.cons_append]
      simp only [← List.cons_append, List.getLast_concat, List.dropLast_concat]

theorem getD_nonEmpty? (fragment : String) : (nonEmpty? fragment).getD "" = fragment := by
  rw [nonEmpty?]
  split
  · next hempty => exact (String.isEmpty_iff.mp hempty).symm
  · rfl

theorem byteLength_filter (parts : List String) :
    byteLength (parts.filter (!·.isEmpty)) = byteLength parts := by
  induction parts with
  | nil => rfl
  | cons fragment parts ih =>
      by_cases hempty : fragment.isEmpty = true
      · obtain rfl := String.isEmpty_iff.mp hempty
        rw [List.filter_cons_of_neg (by simp), ih]
        simp [byteLength]
      · rw [List.filter_cons_of_pos (by simp [hempty])]
        exact congrArg (fragment.utf8ByteSize + ·) ih

theorem byteLength_map_ofList (parts : List (List Char)) :
    byteLength (parts.map String.ofList) = (String.ofList parts.flatten).utf8ByteSize := by
  induction parts with
  | nil => rfl
  | cons fragment parts ih =>
      rw [List.flatten_cons, String.ofList_append, String.utf8ByteSize_append, ← ih]
      rfl

/-- What is found early and what stands at the end are looked for apart from each other. -/
theorem exists_isMatch_iff {pattern : String} (hsplits : Splits pattern.toList (first :: (middle ++ [last])))
    (text : String) :
    ∃ compiled, compile? pattern = some compiled ∧
      (compiled.isMatch text = true ↔
        (String.ofList (first :: (middle ++ [last])).flatten).utf8ByteSize ≤ text.utf8ByteSize ∧
          (∃ front, Spaced (first :: middle) front ∧ front <+: text.toList) ∧ last <:+ text.toList) := by
  refine ⟨_, compile?_of_splits hsplits, ?_⟩
  have hlength : byteLength (String.ofList first :: String.ofList last ::
      (middle.map String.ofList).filter (!·.isEmpty)) =
        (String.ofList (first :: (middle ++ [last])).flatten).utf8ByteSize := by
    have hmiddle : byteLength ((middle.map String.ofList).filter (!·.isEmpty)) =
        (String.ofList middle.flatten).utf8ByteSize := by
      rw [byteLength_filter, byteLength_map_ofList]
    simp only [byteLength, List.foldr_cons] at hmiddle ⊢
    rw [hmiddle]
    simp [String.ofList_append]
    omega
  have hfront : (∃ front, Spaced (first :: middle) front ∧ front <+: text.toList) ↔
      first <+: text.toList ∧ ∃ front, Spaced ([] :: middle) front ∧ front <+: text.toList.drop first.length := by
    constructor
    · rintro ⟨front, hspaced, after, htext⟩
      obtain ⟨tail, rfl, htail⟩ := spaced_cons_iff.mp hspaced
      rw [← htext]
      exact ⟨⟨tail ++ after, by simp⟩, tail, htail, after, by simp⟩
    · rintro ⟨⟨rest, htext⟩, tail, htail, hprefix⟩
      rw [← htext, List.drop_left] at hprefix
      refine ⟨first ++ tail, spaced_cons_iff.mpr ⟨tail, rfl, htail⟩, ?_⟩
      rw [← htext]
      exact (List.prefix_append_right_inj first).mpr hprefix
  simp only [isMatch, getD_nonEmpty?, String.toList_ofList, containsInOrder_filter, hlength, Bool.and_eq_true,
    decide_eq_true_eq, List.isPrefixOf_iff_prefix, List.isSuffixOf_iff_suffix, containsInOrder_iff, hfront, and_assoc]

theorem length_le_of_suffix {front rest : List Char} {text : String} (htext : text.toList = front ++ rest)
    (hsuffix : last <:+ text.toList)
    (hlength : (String.ofList (front ++ last)).utf8ByteSize ≤ text.utf8ByteSize) : last.length ≤ rest.length := by
  rw [htext] at hsuffix
  rcases List.suffix_or_suffix_of_suffix hsuffix (List.suffix_append front rest) with hshort | ⟨extra, rfl⟩
  · exact hshort.length_le
  · have hsize : text.utf8ByteSize = (String.ofList (front ++ rest)).utf8ByteSize := by
      rw [← htext, String.ofList_toList]
    have hextra : (String.ofList extra).utf8ByteSize = 0 := by
      simp only [String.ofList_append, String.utf8ByteSize_append] at hlength hsize
      omega
    have hnil : extra = [] := by simpa using hextra
    simp [hnil]

/-- The patterns that are matched are those with a wildcard, which have a first fragment and a last one. -/
theorem isSome_compile?_iff (pattern : String) :
    (compile? pattern).isSome = true ↔
      ∃ first middle last, Splits pattern.toList (first :: (middle ++ [last])) := by
  constructor
  · intro hsome
    have hsplits := splits_fragments pattern
    rw [compile?] at hsome
    split at hsome
    · next first second rest hfragments =>
        rw [hfragments, List.map_cons] at hsplits
        obtain ⟨middle, last, hparts⟩ :=
          (List.eq_nil_or_concat ((second :: rest).map String.toList)).resolve_left (by simp)
        rw [hparts, List.concat_eq_append] at hsplits
        exact ⟨_, middle, last, hsplits⟩
    · cases hsome
  · rintro ⟨first, middle, last, hsplits⟩
    rw [compile?_of_splits hsplits]
    rfl

/-- **Matching finds all texts of the pattern,** and besides them those in which the last fragment overlaps what was
found before it. Where some arrangement of the other fragments leaves room for the last one, a match is a text of the
pattern; so it is if nothing floats between the first fragment and the last, or the end is open. -/
theorem isMatch_iff {pattern : String} (hsplits : Splits pattern.toList (first :: (middle ++ [last]))) (text : String) :
    ∃ compiled, compile? pattern = some compiled ∧
      (compiled.isMatch text = true ↔
        (String.ofList (first :: (middle ++ [last])).flatten).utf8ByteSize ≤ text.utf8ByteSize ∧
          (∃ front, Spaced (first :: middle) front ∧ front <+: text.toList) ∧ last <:+ text.toList) ∧
      (Spaced (first :: (middle ++ [last])) text.toList ↔
        compiled.isMatch text = true ∧
          ∃ front rest, Spaced (first :: middle) front ∧ text.toList = front ++ rest ∧ last.length ≤ rest.length) ∧
      (middle = [] ∨ last = [] →
        (compiled.isMatch text = true ↔ Spaced (first :: (middle ++ [last])) text.toList)) := by
  obtain ⟨compiled, hcompile, hmatch⟩ := exists_isMatch_iff hsplits text
  have hspaced : Spaced (first :: (middle ++ [last])) text.toList ↔ compiled.isMatch text = true ∧
      ∃ front rest, Spaced (first :: middle) front ∧ text.toList = front ++ rest ∧ last.length ≤ rest.length := by
    rw [hmatch]
    constructor
    · intro hspaced
      have hlength : (String.ofList (first :: (middle ++ [last])).flatten).utf8ByteSize ≤ text.utf8ByteSize := by
        have hsublist := utf8ByteSize_le_of_sublist hspaced.sublist
        rwa [String.ofList_toList] at hsublist
      obtain ⟨front, gap, hfront, htext⟩ := spaced_concat_iff.mp hspaced
      refine ⟨⟨hlength, ⟨front, hfront, gap ++ last, ?_⟩, front ++ gap, htext.symm⟩, front, gap ++ last, hfront, ?_, ?_⟩
      · rw [htext, List.append_assoc]
      · rw [htext, List.append_assoc]
      · simp
    · rintro ⟨⟨-, -, hsuffix⟩, front, rest, hfront, htext, hroom⟩
      rw [htext] at hsuffix
      obtain ⟨gap, rfl⟩ := List.suffix_of_suffix_length_le hsuffix (List.suffix_append front rest) hroom
      exact spaced_concat_iff.mpr ⟨front, gap, hfront, by rw [htext, List.append_assoc]⟩
  refine ⟨compiled, hcompile, hmatch, hspaced, fun hopen => ⟨fun hfound => ?_, fun h => (hspaced.mp h).1⟩⟩
  obtain ⟨hlength, ⟨front, hfront, rest, htext⟩, hsuffix⟩ := hmatch.mp hfound
  refine hspaced.mpr ⟨hfound, front, rest, hfront, htext.symm, ?_⟩
  rcases hopen with rfl | rfl
  · cases hfront with
    | last => exact length_le_of_suffix htext.symm hsuffix (by simpa using hlength)
    | cons _ _ hnone => cases hnone
  · exact Nat.zero_le _

/-- A doubled percent sign in front of a wildcard. -/
theorem isMatch_iff_percent :
    Splits "%%%off".toList (['%'] :: ([] ++ [['o', 'f', 'f']])) ∧
      ∃ compiled, compile? "%%%off" = some compiled ∧ compiled.isMatch "%50off" = true ∧
        Spaced (['%'] :: ([] ++ [['o', 'f', 'f']])) "%50off".toList := by
  have hsplits : Splits "%%%off".toList (['%'] :: ([] ++ [['o', 'f', 'f']])) := splits_fragments "%%%off"
  obtain ⟨compiled, hcompile, -, -, hopen⟩ := isMatch_iff hsplits "%50off"
  have hfound : (compile? "%%%off").all (isMatch · "%50off") = true := by decide
  rw [hcompile] at hfound
  exact ⟨hsplits, compiled, hcompile, hfound, (hopen (.inl rfl)).mp hfound⟩

/-- The text has one `b` for the two fragments that need one each, and is long enough for all three. -/
theorem isMatch_overlap :
    Splits "a%b%b".toList [['a'], ['b'], ['b']] ∧ ¬ Spaced [['a'], ['b'], ['b']] "acb".toList ∧
      ∃ compiled, compile? "a%b%b" = some compiled ∧ compiled.isMatch "acb" = true := by
  refine ⟨splits_fragments "a%b%b", fun hspaced => ?_, _, rfl, by decide⟩
  have hsublist : ['a', 'b', 'b'].Sublist ['a', 'c', 'b'] := hspaced.sublist
  revert hsublist
  decide

end TreeQuery.LikePattern
