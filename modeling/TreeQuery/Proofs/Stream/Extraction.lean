import TreeQuery.Proofs.Path.Nested
import TreeQuery.Proofs.Path.Spelling
import TreeQuery.Proofs.Query.Root
import TreeQuery.Proofs.Stream.Deep

/-!
# Evaluation on text

The value that the cursor extracts is the value that the path has on the tree of the whole text.
-/

namespace TreeQuery

open Json Text

variable {nesting length depth : Nat} {text rest : List Char} {tree : Tree} {dropNulls : Bool}

/-- A step along a segment agrees with the tree: it stops on a part of it, or builds what the segment selects. -/
inductive Agrees (length : Nat) : EStateM.Result Fault Cursor Stop → Except Fault Tree → Prop
  | here {nesting depth : Nat} {text rest : List Char} {tree : Tree} (hplain : Plain nesting text tree)
      (hdelimits : Delimits rest) : Agrees length (.ok .here ⟨length, text ++ rest, depth, none⟩) (.ok tree)
  | built {tree : Tree} {cursor : Cursor} : Agrees length (.ok (.built tree) cursor) (.ok tree)

namespace Movement

variable {root : Tree} {name : String}

theorem agrees_property (hname : isSizeName name = false)
    (hplain : Plain nesting text tree) (hdelimits : Delimits rest) :
    Agrees length ((follow dropNulls (.property name false)).run ⟨length, text ++ rest, depth, none⟩)
      ((Segment.property name false).apply root dropNulls tree) := by
  rw [Segment.apply, HashedName.text_ofText]
  rcases hplain.spells.scalar_or_container with
    hscalar | ⟨inside, inner, items, rfl, rfl, rfl, hitems⟩ | ⟨inside, inner, members, rfl, rfl, rfl, hmembers⟩
  · have hread : readValue.run ⟨length, text ++ rest, depth, none⟩ = .ok tree ⟨length, skipBlank rest, depth, none⟩ :=
      hplain.run_readValue hdelimits
    obtain ⟨c, inner, rfl, hmem⟩ := hscalar.ofChar_head
    simp only [wordTokens, List.mem_cons, List.not_mem_nil, or_false] at hmem
    rw [List.cons_append] at hread ⊢
    rcases hmem with hmem | hmem | hmem | hmem | hmem <;>
      simpa [follow, hmem, hread] using Agrees.built
  · have hcollects : Collects dropNulls name (inner ++ rest) (Tree.propertyOfItems dropNulls name items) :=
      Collects.items hname (hitems.imp_of_mem fun item hmem _ hitem => hplain.item hmem hitem)
    obtain ⟨cursor, hrun⟩ := hcollects length depth none _ (Nat.lt_succ_self _)
    have hproperty : (Tree.array items).property dropNulls name =
        .array (Tree.propertyOfItems dropNulls name items) := by simp [Tree.property, hname]
    rw [hproperty]
    simpa [follow, Token.ofChar, run_advance_open (show opensContainer '[' = true by decide), hrun]
      using Agrees.built
  · cases hfind : Entries.find? members name with
    | none =>
        have hproperty : (Tree.object members).property dropNulls name = .null := by
          simp [Tree.property, Entries.property, hfind, hname]
        have hseek := run_seekField_nothing rest length depth none hmembers hfind
        rw [List.cons_append] at hseek ⊢
        simpa [follow, Token.ofChar, hseek, hproperty] using Agrees.built
    | some found =>
        have hproperty : (Tree.object members).property dropNulls name = found := by
          simp [Tree.property, Entries.property, hfind, hname]
        obtain ⟨kind, value, tail, others, hkind, hvalue, htail, hseek⟩ :=
          exists_run_seekField rest length depth none hmembers hfind
        have hagrees : Agrees length (.ok .here ⟨length, value ++ (tail ++ rest), depth + 1, none⟩) (.ok found) :=
          .here (hplain.member (Entries.mem_of_find? hfind) hvalue) (htail.followsItem (.inr rfl) rest).delimits
        rw [List.cons_append] at hseek ⊢
        simpa [follow, Token.ofChar, hseek, hproperty, hkind] using hagrees

theorem agrees_deep (hplain : Plain nesting text tree) (hdelimits : Delimits rest) :
    Agrees length ((follow dropNulls (.property name true)).run ⟨length, text ++ rest, depth, none⟩)
      ((Segment.property name true).apply root dropNulls tree) := by
  have hrun := run_deepValues hplain hdelimits name length depth (Nat.lt_succ_self _)
  rw [Segment.apply]
  simp only [follow, EStateM.run_bind, run_rest, hrun]
  exact .built

theorem agrees_index {position : Int} (hposition : 0 ≤ position) (hplain : Plain nesting text tree)
    (hdelimits : Delimits rest) :
    Agrees length ((follow dropNulls (.index position)).run ⟨length, text ++ rest, depth, none⟩)
      ((Segment.index position).apply root dropNulls tree) := by
  rw [Segment.apply]
  have hread : readValue.run ⟨length, text ++ rest, depth, none⟩ = .ok tree ⟨length, skipBlank rest, depth, none⟩ :=
    hplain.run_readValue hdelimits
  have hwhole : Cursor.token ⟨length, text ++ rest, depth, none⟩ ≠ .beginArray →
      Agrees length ((follow dropNulls (.index position)).run ⟨length, text ++ rest, depth, none⟩)
        (.ok (tree.atIndex position)) := by
    intro htoken
    simpa [follow, htoken, hread] using Agrees.built
  rcases hplain.spells.scalar_or_container with
    hscalar | ⟨inside, inner, items, rfl, rfl, rfl, hitems⟩ | ⟨inside, inner, members, rfl, rfl, rfl, -⟩
  · exact hwhole (token_ne_of_scalarText hscalar _ (by decide))
  · have hatIndex : (Tree.array items).atIndex position = (items[position.toNat]?).getD .null := by
      rw [Tree.atIndex, resolveIndex, if_pos hposition]
      by_cases hlt : position < items.length
      · rw [if_pos hlt, Option.bind_some]
      · rw [if_neg hlt, List.getElem?_eq_none (by omega), Option.bind_none]
    have hnegative : ¬position < 0 := Int.not_lt.mpr hposition
    rw [hatIndex]
    cases hitem : items[position.toNat]? with
    | none =>
        have hseek := run_seekIndex_false rest length depth none hitems hitem
        rw [List.cons_append] at hseek ⊢
        simpa [follow, Token.ofChar, hnegative, hseek] using Agrees.built
    | some found =>
        obtain ⟨value, tail, others, hvalue, htail, hseek⟩ :=
          exists_run_seekIndex rest length depth none hitems hitem
        have hagrees : Agrees length (.ok .here ⟨length, value ++ (tail ++ rest), depth + 1, none⟩) (.ok found) :=
          .here (hplain.item (List.mem_of_getElem? hitem) hvalue) (htail.followsItem (.inl rfl) rest).delimits
        rw [List.cons_append] at hseek ⊢
        simpa [follow, Token.ofChar, hnegative, hseek] using hagrees
  · exact hwhole (by simp [Token.ofChar])

theorem agrees_follow {segment : Segment} (hsegment : segment.WellFormed) (hstreamed : segment.isStreamed = true)
    (hplain : Plain nesting text tree) (hdelimits : Delimits rest) :
    Agrees length ((follow dropNulls segment).run ⟨length, text ++ rest, depth, none⟩)
      (segment.apply root dropNulls tree) := by
  cases segment with
  | property name deep =>
      -- The cursor finds a key by the hash that the segment keeps, so that has to be the hash of the name.
      obtain ⟨name, rfl⟩ : ∃ text : String, name = .ofText text := ⟨_, HashedName.IsHashed.eq_ofText hsegment⟩
      cases deep with
      | false => exact agrees_property (by simpa [Segment.isStreamed] using hstreamed) hplain hdelimits
      | true => exact agrees_deep hplain hdelimits
  | index position => exact agrees_index (by simpa [Segment.isStreamed] using hstreamed) hplain hdelimits
  | _ => cases hstreamed

def outcome (result : EStateM.Result Fault Cursor Tree) : Except Fault Tree :=
  match result with
  | .ok tree _ => .ok tree
  | .error fault _ => .error fault

theorem outcome_finish (segments : List Segment) (tree : Tree) (cursor : Cursor) :
    outcome ((finish dropNulls segments tree).run cursor) = Segment.applyAll tree dropNulls segments tree := by
  rw [finish]
  cases Segment.applyAll tree dropNulls segments tree <;> rfl

/-- Extracting from a written value is applying the segments to the tree. -/
theorem outcome_extractAll {segments : List Segment} (hwellFormed : ∀ segment ∈ segments, segment.WellFormed)
    (hrefers : segments.any Segment.refers = false) (hplain : Plain nesting text tree) (hdelimits : Delimits rest) :
    outcome ((extractAll dropNulls segments).run ⟨length, text ++ rest, depth, none⟩) =
      Segment.applyAll root dropNulls segments tree := by
  have hread : readValue.run ⟨length, text ++ rest, depth, none⟩ = .ok tree ⟨length, skipBlank rest, depth, none⟩ :=
    hplain.run_readValue hdelimits
  induction segments generalizing nesting depth text rest tree with
  | nil => rw [extractAll, hread, Segment.applyAll]; rfl
  | cons segment segments ih =>
      obtain ⟨hsegment, hwellFormed⟩ := List.forall_mem_cons.mp hwellFormed
      have hsegments : segments.any Segment.refers = false := (Bool.or_eq_false_iff.mp hrefers).2
      cases hstreamed : segment.isStreamed with
      | false =>
          simp only [extractAll, hstreamed, Bool.false_eq_true, if_false, EStateM.run_bind, hread]
          -- What is left is applied to the value read, which stands for the root as nothing refers to it.
          rw [outcome_finish]
          exact Segment.applyAll_of_refers_eq_false hrefers tree
      | true =>
          have hagrees : Agrees length ((follow dropNulls segment).run ⟨length, text ++ rest, depth, none⟩)
              (segment.apply root dropNulls tree) := agrees_follow hsegment hstreamed hplain hdelimits
          simp only [extractAll, hstreamed, if_true, EStateM.run_bind, Segment.applyAll]
          generalize (follow dropNulls segment).run ⟨length, text ++ rest, depth, none⟩ = result at hagrees
          generalize segment.apply root dropNulls tree = applied at hagrees
          cases hagrees with
          -- The cursor stands on a part of the text that is again a written value, where the rest of the path goes on.
          | here hfound hfollows => exact ih hwellFormed hsegments hfound hfollows (hfound.run_readValue hfollows)
          | built =>
              dsimp only
              rw [outcome_finish]
              exact Segment.applyAll_of_refers_eq_false hsegments _

end Movement

/-- **Extraction is evaluation.** On JSON text in which no object repeats a key or announces a number by its first key,
what the cursor extracts with a compiled path is what the path has on the tree of the text, faults included. -/
theorem Path.extractFrom_eq_eval {source : String} {path : Path} (hcompile : Path.compile source dropNulls = .ok path)
    {text : String} {tree : Tree} (hparse : Tree.parse text = some tree)
    (hdistinct : repeatsNoKey text = true) (hannounces : announcesNoNumber text = true) :
    path.extractFrom text = path.eval tree := by
  obtain ⟨hparsed, hkeys, hnumbers⟩ := parseWritten_of_parse hparse hdistinct hannounces
  obtain ⟨before, written, after, hbefore, hafter, htext, hspells⟩ := parseWritten_eq_some_iff.mp hparsed
  have hplain : Plain maxDepth written tree := .of_spells hspells hkeys hnumbers (Nat.le_refl _)
  have hdelimits : Delimits after := by simpa using delimits_of_blank hafter .nil
  have hstart : Cursor.ofString text = ⟨byteLength text.toList, written ++ after, 0, none⟩ := by
    rw [Cursor.ofString, htext, List.append_assoc, skipBlank_append hbefore, hspells.opens.skipBlank_append]
  have houtcome : path.extractFrom text = Movement.outcome (path.extract.run (Cursor.ofString text)) := rfl
  rw [houtcome, hstart, extract]
  cases hwhole : path.needsWhole with
  | true =>
      simp only [if_true, EStateM.run_bind, hplain.run_readValue hdelimits]
      cases path.eval tree <;> rfl
  | false =>
      have hrefers : path.segments.any Segment.refers = false :=
        (refers_eq_any hcompile).symm.trans (Bool.or_eq_false_iff.mp hwhole).1
      exact Movement.outcome_extractAll (wellFormed_of_compile hcompile).segments hrefers hplain hdelimits

/-- A property is read from the items of an array, and arrays among what it gives are joined. -/
theorem Path.extractFrom_items :
    let path := Path.mk "$.a.b" [.property "a" false, .property "b" false] false true
    let text := "\x7b\"a\": [\x7b\"b\": 1\x7d, \x7b\"c\": 3\x7d, \x7b\"b\": [2, true]\x7d]\x7d"
    let tree := Tree.object [("a", .array [.object [("b", .integer 1)], .object [("c", .integer 3)],
      .object [("b", .array [.integer 2, .bool true])]])]
    Path.compile "$.a.b" true = .ok path ∧ Tree.parse text = some tree ∧ repeatsNoKey text = true ∧
      announcesNoNumber text = true ∧ path.extractFrom text = path.eval tree := by
  intro path text tree
  have hcompile : Path.compile "$.a.b" true = .ok path := compile_dottedNames ["a", "b"] (by decide) true
  have hparse : Tree.parse text = some tree := by
    subst text tree
    exact parse_of_parseWritten (by rfl) (by decide) (by decide)
  have hdistinct : repeatsNoKey text = true := by decide +kernel
  have hannounces : announcesNoNumber text = true := by decide +kernel
  exact ⟨hcompile, hparse, hdistinct, hannounces, extractFrom_eq_eval hcompile hparse hdistinct hannounces⟩

/-- In an object that stands for a number, the cursor finds the key all the same. -/
theorem Path.extractFrom_number :
    let text := "\x7b\"$serde_json::private::Number\":\"1\"\x7d"
    let path := Path.mk "$['$serde_json::private::Number']" [.property "$serde_json::private::Number" false] false true
    Path.compile path.text true = .ok path ∧ Tree.parse text = some (.integer 1) ∧
      repeatsNoKey text = true ∧ path.extractFrom text = .ok (.string "1") ∧ path.eval (.integer 1) = .ok .null := by
  intro text path
  have hcompile : Path.compile path.text true = .ok path := by
    have hname := Spelled.brackets (@InBrackets.name ('\'', "$serde_json::private::Number") (by decide))
    have htext : String.ofList ('$' :: ('[' :: (quotedName ('\'', "$serde_json::private::Number") ++ [']']) ++ [])) =
        path.text := by decide +kernel
    have hspelled := (compile_spelled (.cons hname .nil) true).1
    rwa [htext] at hspelled
  have hwritten : parseWritten text.toList = some (.object [("$serde_json::private::Number", .string "1")]) := by
    subst text
    rfl
  have hresolve : resolve? (.object [("$serde_json::private::Number", .string "1")]) = some (.integer 1) := by rfl
  have hkind : (path.extractFrom text).toOption.map (fun found => (found.kindName, found.scalarText?)) =
      some ("string", some "1") := by decide +kernel
  have hextract : path.extractFrom text = .ok (.string "1") := by
    generalize path.extractFrom text = result at hkind
    cases result with
    | error fault => cases hkind
    | ok found =>
        cases found with
        | string content => cases hkind; rfl
        | _ => simp [Except.toOption, Tree.kindName] at hkind
  have heval : path.eval (.integer 1) = .ok .null := by
    subst path
    rfl
  have hdistinct : repeatsNoKey text = true := by
    rw [repeatsNoKey, hwritten]
    rfl
  exact ⟨hcompile, parseChars_eq_some_iff.mpr ⟨_, hwritten, hresolve⟩, hdistinct, hextract, heval⟩

end TreeQuery
