import TreeQuery.Proofs.Path.LikeMatching

/-!
# Quoted text in LIKE patterns

With every percent sign doubled any text is a pattern that stands for itself. The splitter takes percent signs in pairs
from the left, so a quoted text uses up its own signs and leaves what follows as it is: a single sign behind it is a
wildcard, unless another one follows.
-/

namespace TreeQuery.LikePattern

/-- The text with every percent sign doubled. -/
def quoteChars (text : List Char) : List Char := text.flatMap fun c => if c = '%' then ['%', '%'] else [c]

def quote (text : String) : String := String.ofList (quoteChars text.toList)

variable {text rest fragment : List Char} {parts : List (List Char)}

theorem quoteChars_percent (text : List Char) : quoteChars ('%' :: text) = '%' :: '%' :: quoteChars text := rfl

theorem quoteChars_cons {c : Char} (hne : c ≠ '%') (text : List Char) :
    quoteChars (c :: text) = c :: quoteChars text := by
  unfold quoteChars
  rw [List.flatMap_cons, if_neg hne, List.singleton_append]

theorem head?_quoteChars (text : List Char) : (quoteChars text).head? = text.head? := by
  cases text with
  | nil => rfl
  | cons c text =>
      by_cases hpercent : c = '%'
      · subst hpercent
        rfl
      · rw [quoteChars_cons hpercent, List.head?_cons, List.head?_cons]

/-- Quoted text joins the fragment that follows it. -/
theorem Splits.quoteChars_append (hsplits : Splits rest (fragment :: parts)) (text : List Char) :
    Splits (quoteChars text ++ rest) ((text ++ fragment) :: parts) := by
  induction text with
  | nil => exact hsplits
  | cons c text ih =>
      by_cases hpercent : c = '%'
      · subst hpercent
        rw [quoteChars_percent]
        exact .doubled ih
      · rw [quoteChars_cons hpercent]
        exact .char hpercent ih

theorem splits_quoteChars (text : List Char) : Splits (quoteChars text) [text] := by
  have hsplits := Splits.quoteChars_append .nil text
  rwa [List.append_nil, List.append_nil] at hsplits

/-- The sign between two quoted texts is a wildcard if it is not paired with the first of the second text. -/
theorem splits_quoteChars_wildcard {first last : List Char} (hlast : last.head? ≠ some '%') :
    Splits (quoteChars first ++ '%' :: quoteChars last) [first, last] := by
  have hhead : (quoteChars last).head? ≠ some '%' := by rwa [head?_quoteChars]
  have hsplits := (Splits.wildcard hhead (splits_quoteChars last)).quoteChars_append first
  rwa [List.append_nil] at hsplits

/-- A pattern is known by how it splits. -/
theorem fragments_of_splits {pattern : String} (hsplits : Splits pattern.toList parts) :
    fragments pattern = parts.map String.ofList := by
  obtain ⟨fragment, others, rfl, hsplit⟩ := hsplits.splitAux_eq []
  rw [fragments, hsplit, List.reverse_nil, List.nil_append]

theorem fragments_quote (text : String) : fragments (quote text) = [text] := by
  have hsplits : Splits (quote text).toList [text.toList] := by
    unfold quote
    rw [String.toList_ofList]
    exact splits_quoteChars text.toList
  rw [fragments_of_splits hsplits, List.map_singleton, String.ofList_toList]

/-- **Doubled percent signs quote any text.** A quoted text has no wildcard and stands for the text itself. Two quoted
texts with a single percent sign between them are the start and the end of what is matched, with nothing that floats
in between, unless the sign is paired with one at the start of the second text. -/
theorem compile?_quote (text : String) :
    compile? (quote text) = none ∧ literal (quote text) = text ∧
      ∀ finish : String, finish.toList.head? ≠ some '%' →
        compile? (quote text ++ "%" ++ quote finish) = some {
          startsWith := if text = "" then none else some text
          endsWith := if finish = "" then none else some finish
          contains := []
          minLength := text.utf8ByteSize + finish.utf8ByteSize } := by
  refine ⟨?_, ?_, fun finish hfinish => ?_⟩
  · rw [compile?, fragments_quote]
  · rw [literal, fragments_quote, String.intercalate_singleton]
  · have hsplits : Splits (quote text ++ "%" ++ quote finish).toList
        (text.toList :: ([] ++ [finish.toList])) := by
      have htext : (quote text ++ "%" ++ quote finish).toList =
          quoteChars text.toList ++ '%' :: quoteChars finish.toList := by
        simp [quote]
      rw [htext]
      exact splits_quoteChars_wildcard hfinish
    have hnonEmpty (fragment : String) : nonEmpty? fragment = if fragment = "" then none else some fragment := by
      simp [nonEmpty?]
    rw [compile?_of_splits hsplits, String.ofList_toList, String.ofList_toList, hnonEmpty, hnonEmpty]
    rfl

/-- Both texts end in percent signs, so that three of them stand before the second text and two behind it. -/
theorem compile?_quote_rates :
    "off%".toList.head? ≠ some '%' ∧
      compile? (quote "5%" ++ "%" ++ quote "off%") = some ⟨some "5%", some "off%", [], 6⟩ ∧
      quote "5%" ++ "%" ++ quote "off%" = "5%%%off%%" := by
  have hfinish : "off%".toList.head? ≠ some '%' := by decide
  exact ⟨hfinish, (compile?_quote "5%").2.2 "off%" hfinish, rfl⟩

end TreeQuery.LikePattern
