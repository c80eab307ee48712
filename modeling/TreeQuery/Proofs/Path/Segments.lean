import TreeQuery.Proofs.Path.Scanning

/-!
# Segments and whole paths

A path is read piece by piece: where each piece is read as its segment in front of what follows it, the whole
text compiles to the segments in their order.
-/

namespace TreeQuery

def startsSegment (c : Char) : Bool := c == '.' || c == '/' || c == '['

/-- The text has ended, or goes on with a segment. -/
def EndsSegment (text : List Char) : Prop := ∀ c ∈ text.head?, startsSegment c = true

theorem EndsSegment.nil : EndsSegment [] := by simp [EndsSegment]

theorem endsSegment_cons {c : Char} {text : List Char} : EndsSegment (c :: text) ↔ startsSegment c = true := by
  simp [EndsSegment]

theorem startsSegment_facts {c : Char} (hstarts : startsSegment c = true) :
    isNameChar c = false ∧ c ≠ '\\' ∧ c.isDigit = false ∧ c ≠ '(' ∧ Text.isBlank c = false ∧
      Text.isWhiteSpace c = false ∧ c ≠ '$' ∧ Segment.ofSingle? [c] = none := by
  simp only [startsSegment, Bool.or_eq_true, beq_iff_eq] at hstarts
  rcases hstarts with (rfl | rfl) | rfl <;>
    exact ⟨by decide, by decide, by decide, by decide, by decide, by decide, by decide, rfl⟩

theorem EndsSegment.endsName {text : List Char} (hends : EndsSegment text) : EndsName text := fun c hmem =>
  have hfacts := startsSegment_facts (hends c hmem)
  ⟨hfacts.1, hfacts.2.1⟩

theorem EndsSegment.head?_ne {text : List Char} (hends : EndsSegment text) {c : Char}
    (hc : startsSegment c = false) : text.head? ≠ some c := by
  intro hhead
  have hstarts := hends c hhead
  rw [hc] at hstarts
  cases hstarts

/-- The piece is read as the segment when the rest follows it. -/
def Reads (piece : List Char) (segment : Segment) (rest : List Char) : Prop :=
  ∀ compile first length refers, (Scan.segment compile first).run ⟨⟨length, piece ++ rest, 0⟩, refers⟩ =
    .ok (some segment) ⟨⟨length, rest, 0⟩, refers⟩

/-- A text of pieces that are read one after another. -/
inductive PathText : List Char → List Segment → Prop
  | nil : PathText [] []
  | cons {c : Char} {piece rest : List Char} {segment : Segment} {segments : List Segment}
      (hstarts : startsSegment c = true) (hreads : Reads (c :: piece) segment rest)
      (hrest : PathText rest segments) : PathText (c :: piece ++ rest) (segment :: segments)

theorem PathText.endsSegment {text : List Char} {segments : List Segment} (htext : PathText text segments) :
    EndsSegment text := by
  cases htext with
  | nil => exact .nil
  | cons hstarts _ _ => exact endsSegment_cons.mpr hstarts

theorem PathText.run_segments {text : List Char} {segments : List Segment} (htext : PathText text segments)
    (compile : String → Except Fault Path) {fuel : Nat} (hfuel : text.length < fuel) (first : Bool) (length : Nat)
    (refers : Bool) :
    (Scan.segments compile fuel first).run ⟨⟨length, text, 0⟩, refers⟩ = .ok segments ⟨⟨length, [], 0⟩, refers⟩ := by
  -- Every piece has a character of its own, so the length of the text is fuel enough.
  induction htext generalizing fuel first with
  | nil =>
      obtain ⟨fuel, rfl⟩ := exists_eq_succ_of_lt hfuel
      rfl
  | @cons c piece rest segment segments hstarts hreads _ ih =>
      obtain ⟨fuel, rfl⟩ := exists_eq_succ_of_lt hfuel
      have hskip : Scan.skipBlank.run ⟨length, c :: (piece ++ rest), 0⟩ = .ok () ⟨length, c :: (piece ++ rest), 0⟩ := by
        refine Scan.run_skipBlank fun x hmem => ?_
        obtain rfl : c = x := Option.some.inj hmem
        exact (startsSegment_facts hstarts).2.2.2.2.1
      rw [List.length_append, List.length_cons] at hfuel
      have hsegment := hreads compile first length refers
      have hrest := ih (show rest.length < fuel by omega) false
      rw [List.cons_append] at hsegment ⊢
      simp [Scan.segments, hskip, hsegment, hrest]

theorem isEmpty_trimChars {c : Char} (hc : Text.isWhiteSpace c = false) (text : List Char) :
    (Text.trimChars (c :: text)).isEmpty = false := by
  have hstart : (c :: text).dropWhile Text.isWhiteSpace = c :: text := List.dropWhile_cons_of_neg (by simp [hc])
  have hlast : [c].dropWhile Text.isWhiteSpace = [c] := List.dropWhile_cons_of_neg (by simp [hc])
  rw [Text.trimChars, hstart, List.isEmpty_reverse, List.reverse_cons, List.dropWhile_append, hlast]
  split <;> simp

theorem ofSingle?_eq_none {c : Char} (hsingle : Segment.ofSingle? [c] = none) (text : List Char) :
    Segment.ofSingle? (c :: text) = none := by
  cases text with
  | nil => exact hsingle
  | cons _ _ => rfl

theorem compileWith_cons {c : Char} (hwhite : Text.isWhiteSpace c = false) (hsingle : Segment.ofSingle? [c] = none)
    (text : List Char) (dropNulls : Bool) (fuel : Nat) :
    Path.compileWith dropNulls (fuel + 1) (String.ofList (c :: text)) =
      match (Scan.wholePath (Path.compileWith dropNulls fuel)).run ⟨⟨byteLength (c :: text), c :: text, 0⟩, false⟩ with
      | .ok segments parser => .ok (.mk (String.ofList (c :: text)) segments parser.refers dropNulls)
      | .error fault _ => .error fault := by
  rw [Path.compileWith, Parser.ofString, Scanner.ofString, String.toList_ofList, isEmpty_trimChars hwhite,
    ofSingle?_eq_none hsingle]
  simp only [Bool.false_eq_true, if_false]
  rfl

theorem compileWith_of_wholePath {c : Char} {text : List Char} {segments : List Segment} {refers : Bool}
    (hwhite : Text.isWhiteSpace c = false) (hsingle : Segment.ofSingle? [c] = none)
    {dropNulls : Bool} {fuel : Nat}
    (hwhole : ∀ length, (Scan.wholePath (Path.compileWith dropNulls fuel)).run ⟨⟨length, c :: text, 0⟩, false⟩ =
      .ok segments ⟨⟨length, [], 0⟩, refers⟩) :
    Path.compileWith dropNulls (fuel + 1) (String.ofList (c :: text)) =
      .ok (.mk (String.ofList (c :: text)) segments refers dropNulls) := by
  rw [compileWith_cons hwhite hsingle, hwhole]

theorem PathText.compileWith_dollar {text : List Char} {segments : List Segment} (htext : PathText text segments)
    (dropNulls : Bool) (fuel : Nat) :
    Path.compileWith dropNulls (fuel + 1) (String.ofList ('$' :: text)) =
      .ok (.mk (String.ofList ('$' :: text)) segments false dropNulls) := by
  refine compileWith_of_wholePath (by decide) rfl fun length => ?_
  have hskip : Scan.skipBlank.run ⟨length, '$' :: text, 0⟩ = .ok () ⟨length, '$' :: text, 0⟩ := rfl
  simp [Scan.wholePath, hskip, Scan.run_eat_self, htext.run_segments _ (Nat.lt_succ_self _)]

theorem PathText.compile_dollar {text : List Char} {segments : List Segment} (htext : PathText text segments)
    (dropNulls : Bool) :
    Path.compile (String.ofList ('$' :: text)) dropNulls =
      .ok (.mk (String.ofList ('$' :: text)) segments false dropNulls) :=
  htext.compileWith_dollar dropNulls _

/-- The dollar sign may be left out if there are segments at all. -/
theorem PathText.compile {text : List Char} {segments : List Segment} (htext : PathText text segments)
    (hne : segments ≠ []) (dropNulls : Bool) :
    Path.compile (String.ofList text) dropNulls = .ok (.mk (String.ofList text) segments false dropNulls) := by
  have hsegments := fun length =>
    htext.run_segments (Path.compileWith dropNulls text.length) (Nat.lt_succ_self text.length) true length false
  cases htext with
  | nil => exact absurd rfl hne
  | @cons c piece rest segment segments hstarts _ _ =>
      obtain ⟨-, -, -, -, hblank, hwhite, hdollar, hsingle⟩ := startsSegment_facts hstarts
      rw [Path.compile, String.length_ofList]
      rw [List.cons_append] at hsegments ⊢
      refine compileWith_of_wholePath hwhite hsingle fun length => ?_
      have hskip : Scan.skipBlank.run ⟨length, c :: (piece ++ rest), 0⟩ = .ok () ⟨length, c :: (piece ++ rest), 0⟩ :=
        Scan.run_skipBlank (by simpa using hblank)
      have heat : (Scan.eat '$').run ⟨length, c :: (piece ++ rest), 0⟩ =
          .ok false ⟨length, c :: (piece ++ rest), 0⟩ := Scan.run_eat_of_head?_ne (by simpa using hdollar)
      simp only [Scan.wholePath, EStateM.run_bind, Scan.run_parse, Parser.afterScan_ok, hskip, heat]
      exact hsegments length

end TreeQuery
