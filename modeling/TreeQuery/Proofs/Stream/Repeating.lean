import TreeQuery.Proofs.Stream.Splitting
import TreeQuery.Stream.Extract

/-!
# Extraction repeats itself

A movement that succeeds has passed a part of the text, and all that it has seen beyond that part is what starts there.
So it does the same on every text that begins with the same part and goes on alike. The number of steps that a search
is given depends on the whole text; that there are more of them than characters to pass is all that matters.
-/

namespace TreeQuery

open Text

namespace Movement

variable {α β : Type}

/-- When the movement succeeds it has passed at least `used` characters. If they are fewer than `fuel`, the second
movement does the same on a text that begins with them and goes on alike. -/
def Repeats (used fuel : Nat) (movement again : Movement α) : Prop :=
  ∀ cursor a next, movement.run cursor = .ok a next →
    next.length = cursor.length ∧ ∃ front, cursor.rest = front ++ next.rest ∧ used ≤ front.length ∧
      (front.length < fuel → ∀ length tail, Alike next.rest tail →
        again.run ⟨length, front ++ tail, cursor.depth, cursor.deepScope⟩ =
          .ok a ⟨length, tail, next.depth, next.deepScope⟩)

section Judgement

variable {used used' fuel : Nat} {movement again : Movement α} {next next' : α → Movement β}

theorem Repeats.mono (hmovement : Repeats used fuel movement again) (hle : used' ≤ used) :
    Repeats used' fuel movement again := by
  intro cursor a next hrun
  obtain ⟨hlength, front, hfront, hused, hagain⟩ := hmovement cursor a next hrun
  exact ⟨hlength, front, hfront, Nat.le_trans hle hused, hagain⟩

theorem Repeats.any (hmovement : Repeats used fuel movement again) : Repeats 0 fuel movement again :=
  hmovement.mono (Nat.zero_le _)

/-- What the first movement has passed need not be passed by the second. -/
theorem Repeats.andThen (hmovement : Repeats used fuel movement again)
    (hnext : ∀ a, Repeats used' (fuel - used) (next a) (next' a)) :
    Repeats (used + used') fuel (movement >>= next) (again >>= next') := by
  intro cursor b last hrun
  obtain ⟨a, middle, hfirst, hsecond⟩ := run_bind_eq_ok.mp hrun
  obtain ⟨hlength, front, hfront, hused, hagain⟩ := hmovement cursor a middle hfirst
  obtain ⟨hlength', front', hfront', hused', hagain'⟩ := hnext a middle b last hsecond
  refine ⟨hlength'.trans hlength, front ++ front', by rw [hfront, hfront', List.append_assoc], ?_, ?_⟩
  · rw [List.length_append]
    exact Nat.add_le_add hused hused'
  · intro hfuel length tail halike
    rw [List.length_append] at hfuel
    have hmiddle : Alike middle.rest (front' ++ tail) := hfront' ▸ halike.append front'
    rw [List.append_assoc, run_bind_eq_ok]
    exact ⟨a, _, hagain (by omega) length _ hmiddle, hagain' (by omega) length tail halike⟩

theorem Repeats.bind (hmovement : Repeats used fuel movement again)
    (hnext : ∀ a, Repeats 0 (fuel - used) (next a) (next' a)) :
    Repeats used fuel (movement >>= next) (again >>= next') := hmovement.andThen hnext

theorem Repeats.after (hmovement : Repeats 0 fuel movement again) (hnext : ∀ a, Repeats used fuel (next a) (next' a)) :
    Repeats used fuel (movement >>= next) (again >>= next') :=
  (hmovement.andThen hnext).mono (Nat.le_of_eq (Nat.zero_add used).symm)

theorem repeats_pure (a : α) : Repeats 0 fuel (pure a) (pure a) := by
  rintro cursor _ _ ⟨⟩
  exact ⟨rfl, [], rfl, Nat.le_refl _, fun _ _ _ _ => rfl⟩

theorem repeats_throw (fault : Fault) (again : Movement α) : Repeats used fuel (throw fault) again := by
  rintro _ _ _ ⟨⟩

theorem repeats_fail (cause : CursorFault) (again : Movement α) : Repeats used fuel (fail cause) again := by
  rintro _ _ _ ⟨⟩

theorem Repeats.ite {condition : Prop} [Decidable condition] {other other' : Movement α}
    (hmovement : Repeats used fuel movement again) (hother : Repeats used fuel other other') :
    Repeats used fuel (if condition then movement else other) (if condition then again else other') := by
  split
  · exact hmovement
  · exact hother

theorem Repeats.optional {condition : Prop} [Decidable condition] {check check' : Movement Unit}
    (hcheck : Repeats 0 fuel check check') (hrest : Repeats 0 fuel movement again) :
    Repeats 0 fuel (if condition then check >>= fun _ => movement else movement)
      (if condition then check' >>= fun _ => again else again) :=
  .ite (hcheck.bind fun _ => hrest) hrest

/-- With no fuel nothing has to be repeated, so a search may be taken to have some. -/
theorem repeats_of_succ {search : Nat → Movement α} (hsearch : ∀ fuel, Repeats used (fuel + 1) movement (search (fuel + 1)))
    (fuel : Nat) : Repeats used fuel movement (search fuel) := by
  cases fuel with
  | zero =>
      intro cursor a next hrun
      obtain ⟨hlength, front, hfront, hused, -⟩ := hsearch 0 cursor a next hrun
      exact ⟨hlength, front, hfront, hused, fun hfuel => absurd hfuel (Nat.not_lt_zero _)⟩
  | succ fuel => exact hsearch fuel

/-- What is looked at of the cursor is the same again if it is not its text. -/
theorem repeats_get {go go' : Cursor → Movement β} (hgo : ∀ cursor, Repeats used fuel (go cursor) (go' cursor))
    (hsame : ∀ cursor length text, go' ⟨length, text, cursor.depth, cursor.deepScope⟩ = go' cursor) :
    Repeats used fuel (get >>= go) (get >>= go') := by
  intro cursor b last hrun
  obtain ⟨hlength, front, hfront, hused, hagain⟩ := hgo cursor cursor b last hrun
  refine ⟨hlength, front, hfront, hused, fun hfuel length tail halike => ?_⟩
  have hrepeat := hagain hfuel length tail halike
  rw [← hsame cursor length (front ++ tail)] at hrepeat
  exact hrepeat

/-- A search with fuel for the whole text has enough for every part that it passes. -/
theorem repeats_search {search : Cursor → Nat → Movement β}
    (hsearch : ∀ cursor fuel fuel', Repeats used fuel' (search cursor fuel) (search cursor fuel'))
    (hsame : ∀ cursor length text, search ⟨length, text, cursor.depth, cursor.deepScope⟩ = search cursor) :
    Repeats used fuel (do let cursor ← get; search cursor (cursor.rest.length + 1))
      (do let cursor ← get; search cursor (cursor.rest.length + 1)) := by
  intro cursor b last hrun
  obtain ⟨hlength, front, hfront, hused, -⟩ := hsearch cursor (cursor.rest.length + 1) 0 cursor b last hrun
  refine ⟨hlength, front, hfront, hused, fun _ length tail halike => ?_⟩
  obtain ⟨-, front', hfront', -, hagain⟩ :=
    hsearch cursor (cursor.rest.length + 1) ((front ++ tail).length + 1) cursor b last hrun
  obtain rfl : front = front' := List.append_cancel_right (hfront.symm.trans hfront')
  have hfuel : front.length < (front ++ tail).length + 1 := by
    rw [List.length_append]
    omega
  have hrepeat := hagain hfuel length tail halike
  rw [← hsame cursor length (front ++ tail)] at hrepeat
  exact hrepeat

theorem repeats_rest (search : Nat → Movement β)
    (hsearch : ∀ fuel fuel', Repeats used fuel' (search fuel) (search fuel')) :
    Repeats used fuel (do let text ← rest; search (text.length + 1)) (do let text ← rest; search (text.length + 1)) :=
  repeats_search (fun _ => hsearch) fun _ _ _ => rfl

theorem repeats_modify {change : Cursor → Cursor}
    (hchange : ∀ cursor length text, change ⟨length, text, cursor.depth, cursor.deepScope⟩ =
      ⟨length, text, (change cursor).depth, (change cursor).deepScope⟩) :
    Repeats 0 fuel (modify change) (modify change) := by
  rintro cursor _ _ ⟨⟩
  have hcursor : change cursor = ⟨cursor.length, cursor.rest, (change cursor).depth, (change cursor).deepScope⟩ :=
    hchange cursor cursor.length cursor.rest
  have hlength := congrArg Cursor.length hcursor
  have hrest := congrArg Cursor.rest hcursor
  refine ⟨hlength, [], hrest.symm, Nat.le_refl _, fun _ length tail _ => ?_⟩
  exact congrArg (EStateM.Result.ok _) (hchange cursor length tail)

end Judgement

/-! ### Pieces of text -/

section Pieces

variable {used fuel : Nat}

/-- The movement takes a piece of at least `used` characters off the text, with the white space behind it, and takes
the same piece off texts that go on alike. -/
def Takes (used : Nat) (movement : Movement α) (cursor : Cursor) (a : α) (next : Cursor) : Prop :=
  ∃ piece rest depth, cursor.rest = piece ++ rest ∧ used ≤ piece.length ∧
    next = ⟨cursor.length, skipBlank rest, depth, cursor.deepScope⟩ ∧
    ∀ length rest', Alike rest rest' →
      movement.run ⟨length, piece ++ rest', cursor.depth, cursor.deepScope⟩ =
        .ok a ⟨length, skipBlank rest', depth, cursor.deepScope⟩

theorem repeats_of_takes {movement : Movement α}
    (htakes : ∀ cursor a next, movement.run cursor = .ok a next → Takes used movement cursor a next) :
    Repeats used fuel movement movement := by
  intro cursor a next hrun
  obtain ⟨piece, rest, depth, hrest, hused, rfl, hagain⟩ := htakes cursor a next hrun
  obtain ⟨blank, hblank, hskip⟩ := Json.exists_blank rest
  refine ⟨rfl, piece ++ blank, ?_, ?_, fun _ length tail halike => ?_⟩
  · rw [List.append_assoc, ← hskip, hrest]
  · rw [List.length_append]
    exact Nat.le_add_right_of_le hused
  · have hbehind : Alike rest (blank ++ tail) := by
      rw [hskip]
      exact halike.append blank
    have htail : skipBlank (blank ++ tail) = tail := halike.skipBlank_append hblank
    have hrepeat := hagain length _ hbehind
    rwa [htail, ← List.append_assoc] at hrepeat

theorem repeats_token : Repeats 0 fuel token token := by
  rintro cursor _ _ ⟨⟩
  refine ⟨rfl, [], rfl, Nat.le_refl _, fun _ length tail halike => ?_⟩
  have htoken := halike.token_eq cursor.length length cursor.depth cursor.depth cursor.deepScope cursor.deepScope
  rw [List.nil_append, run_token, ← htoken]

theorem splitValue_of_run_valueText {cursor next : Cursor} {found : List Char × List Char}
    (hrun : valueText.run cursor = .ok found next) : splitValue cursor.rest = .ok found ∧ next = cursor := by
  obtain ⟨text, middle, hrest, hsplit⟩ := run_bind_eq_ok.mp hrun
  cases hrest
  cases hfound : splitValue cursor.rest with
  | ok found' =>
      rw [hfound] at hsplit
      cases hsplit
      exact ⟨rfl, rfl⟩
  | error cause =>
      rw [hfound] at hsplit
      cases hsplit

theorem takes_skipValue {cursor next : Cursor} {a : Unit} (hrun : skipValue.run cursor = .ok a next) :
    Takes 1 skipValue cursor a next := by
  obtain ⟨⟨piece, rest⟩, middle, hvalue, hmove⟩ := run_bind_eq_ok.mp hrun
  obtain ⟨hsplit, rfl⟩ := splitValue_of_run_valueText hvalue
  cases hmove
  obtain ⟨hrest, hne, hagain⟩ := splitValue_append hsplit
  refine ⟨piece, rest, _, hrest, List.length_pos_iff.mpr hne, rfl, fun length rest' halike => ?_⟩
  simp [skipValue, run_valueText (hagain rest' halike)]

theorem repeats_skipValue : Repeats 1 fuel skipValue skipValue := repeats_of_takes fun _ _ _ => takes_skipValue

theorem repeats_readValue : Repeats 1 fuel readValue readValue := by
  refine repeats_of_takes fun cursor tree next hrun => ?_
  obtain ⟨⟨piece, rest⟩, middle, hvalue, hparsed⟩ := run_bind_eq_ok.mp hrun
  obtain ⟨hsplit, rfl⟩ := splitValue_of_run_valueText hvalue
  obtain ⟨hrest, hne, hagain⟩ := splitValue_append hsplit
  cases hparse : Json.parseChars piece with
  | none =>
      simp only [hparse] at hparsed
      cases hparsed
  | some found =>
      simp only [hparse] at hparsed
      cases hparsed
      refine ⟨piece, rest, _, hrest, List.length_pos_iff.mpr hne, rfl, fun length rest' halike => ?_⟩
      simp [readValue, run_valueText (hagain rest' halike), hparse]

theorem repeats_readString : Repeats 1 fuel readString readString := by
  refine repeats_of_takes fun cursor key next hrun => ?_
  obtain ⟨length, text, depth, scope⟩ := cursor
  obtain ⟨_, middle, htext, hread⟩ := run_bind_eq_ok.mp hrun
  cases htext
  cases hsplit : splitQuoted (text.drop 1) with
  | none =>
      simp only [hsplit] at hread
      cases hread
  | some found =>
      obtain ⟨quoted, rest⟩ := found
      obtain ⟨hrest, hne, hagain⟩ := splitQuoted_append hsplit
      cases hdecode : decodeQuoted quoted with
      | none =>
          simp only [hsplit, hdecode] at hread
          cases hread
      | some content =>
          simp only [hsplit, hdecode] at hread
          cases hread
          cases text with
          | nil => exact absurd (List.append_eq_nil_iff.mp hrest.symm).1 hne
          | cons c text =>
              refine ⟨c :: quoted, rest, depth, congrArg (c :: ·) hrest, Nat.succ_pos _, rfl, fun length rest' _ => ?_⟩
              simp [readString, hagain rest', hdecode]

section Advance

variable {c : Char} {text : List Char} {length depth : Nat} {scope : Option Nat} {next : Cursor} {a : Unit}

theorem takes_char (depth' : Nat) (hadvance : ∀ length rest, advance.run ⟨length, c :: rest, depth, scope⟩ =
    .ok () ⟨length, skipBlank rest, depth', scope⟩) (hrun : advance.run ⟨length, c :: text, depth, scope⟩ = .ok a next) :
    Takes 1 advance ⟨length, c :: text, depth, scope⟩ a next := by
  rw [hadvance] at hrun
  cases hrun
  exact ⟨[c], text, depth', rfl, Nat.le_refl _, rfl, fun length rest' _ => hadvance length rest'⟩

theorem takes_value (hadvance : ∀ length rest, advance.run ⟨length, c :: rest, depth, scope⟩ =
    skipValue.run ⟨length, c :: rest, depth, scope⟩) (hrun : advance.run ⟨length, c :: text, depth, scope⟩ = .ok a next) :
    Takes 1 advance ⟨length, c :: text, depth, scope⟩ a next := by
  rw [hadvance] at hrun
  obtain ⟨piece, rest, depth', hrest, hused, hnext, hagain⟩ := takes_skipValue hrun
  obtain ⟨x, piece, rfl⟩ := List.exists_cons_of_length_pos hused
  obtain rfl : c = x := (List.cons.inj hrest).1
  exact ⟨c :: piece, rest, depth', hrest, hused, hnext, fun length rest' halike =>
    (hadvance length _).trans (hagain length rest' halike)⟩

/-- Brackets and separators are passed as single characters, and whatever else can be passed is a value. -/
theorem takes_advance {cursor : Cursor} (hrun : advance.run cursor = .ok a next) : Takes 1 advance cursor a next := by
  obtain ⟨length, text, depth, scope⟩ := cursor
  cases text with
  | nil => cases hrun
  | cons c text =>
      cases htoken : Token.ofChar c with
      | finish =>
          simp only [advance, EStateM.run_bind, run_token, token_cons, htoken] at hrun
          cases hrun
      | invalid =>
          simp only [advance, EStateM.run_bind, run_token, token_cons, htoken] at hrun
          cases hrun
      | beginObject => exact takes_char (depth + 1) (fun length rest => by simp [advance, htoken]) hrun
      | beginArray => exact takes_char (depth + 1) (fun length rest => by simp [advance, htoken]) hrun
      | endObject => exact takes_char (depth - 1) (fun length rest => by simp [advance, htoken]) hrun
      | endArray => exact takes_char (depth - 1) (fun length rest => by simp [advance, htoken]) hrun
      | comma => exact takes_char depth (fun length rest => by simp [advance, htoken]) hrun
      | colon => exact takes_char depth (fun length rest => by simp [advance, htoken]) hrun
      | _ => exact takes_value (fun length rest => by simp [advance, htoken]) hrun

end Advance

theorem repeats_advance : Repeats 1 fuel advance advance := repeats_of_takes fun _ _ _ => takes_advance

theorem repeats_eat (separator : Token) : Repeats 0 fuel (eat separator) (eat separator) := by
  rw [eat]
  refine repeats_token.bind fun kind => ?_
  split
  · exact (repeats_advance.bind fun _ => repeats_pure _).any
  · exact repeats_pure _

theorem repeats_found : Repeats 0 fuel found found := by
  rw [found]
  refine repeats_token.bind fun kind => ?_
  cases kind <;> exact repeats_pure _

end Pieces

/-! ### Fields and items -/

section Fields

variable (name : String) (hash : UInt64)

theorem repeats_seekEntry (fuel fuel' : Nat) :
    Repeats 0 fuel' (seekEntry name hash fuel) (seekEntry name hash fuel') := by
  induction fuel generalizing fuel' with
  | zero => exact repeats_fail _ _
  | succ fuel ih =>
      refine repeats_of_succ (fun fuel' => ?_) fuel'
      have hvalue (key : String) : Repeats 0 fuel' (if isKey name hash key then found else do
          skipValue
          let _ ← eat .comma
          seekEntry name hash fuel) (if isKey name hash key then found else do
          skipValue
          let _ ← eat .comma
          seekEntry name hash fuel') :=
        repeats_found.ite (repeats_skipValue.any.bind fun _ => (repeats_eat _).bind fun _ => ih fuel')
      rw [seekEntry, seekEntry]
      refine repeats_token.bind fun kind => ?_
      cases kind with
      | endObject => exact (repeats_advance.bind fun _ => repeats_pure _).any
      | string =>
          refine (repeats_readString.bind fun key => (repeats_eat _).bind fun colon => ?_).any
          exact (repeats_fail _ _).optional (hvalue key)
      | _ => exact repeats_fail _ _

theorem repeats_seekField (fuel : Nat) : Repeats 1 fuel (seekField name hash) (seekField name hash) := by
  rw [seekField]
  refine repeats_token.after fun kind => .ite (repeats_skipValue.bind fun _ => repeats_pure _) ?_
  exact repeats_advance.bind fun _ => repeats_rest (seekEntry name hash) (repeats_seekEntry name hash)

theorem repeats_seekBelow (scope fuel fuel' : Nat) :
    Repeats 0 fuel' (seekBelow name hash scope fuel) (seekBelow name hash scope fuel') := by
  induction fuel generalizing fuel' with
  | zero => exact repeats_fail _ _
  | succ fuel ih =>
      refine repeats_of_succ (fun fuel' => ?_) fuel'
      have hleave : ∀ {limit}, Repeats 0 limit (do
          modify fun cursor : Cursor => { cursor with deepScope := none }
          return Found.nothing) (do
          modify fun cursor : Cursor => { cursor with deepScope := none }
          return Found.nothing) := (repeats_modify fun _ _ _ => rfl).bind fun _ => repeats_pure _
      have hclose : Repeats 0 (fuel' + 1) (do
          advance
          if (← get).depth = scope then
            modify fun cursor => { cursor with deepScope := none }
            return .nothing
          seekBelow name hash scope fuel) (do
          advance
          if (← get).depth = scope then
            modify fun cursor => { cursor with deepScope := none }
            return .nothing
          seekBelow name hash scope fuel') := by
        refine (repeats_advance.bind fun _ => repeats_get (fun cursor => ?_) fun _ _ _ => rfl).any
        exact hleave.ite (ih _)
      rw [seekBelow, seekBelow]
      refine repeats_token.bind fun kind => ?_
      cases kind with
      | finish => exact hleave
      | endObject => exact hclose
      | endArray => exact hclose
      | string =>
          refine (repeats_readString.bind fun key => (repeats_eat _).bind fun colon => ?_).any
          exact repeats_found.ite (ih _)
      | _ => exact (repeats_advance.bind fun _ => ih _).any

/-- A deep search with the scope that is set, or from a container that it is then set to. -/
def searchBelow (cursor : Cursor) (fuel : Nat) : Movement Found :=
  match cursor.deepScope with
  | some scope => seekBelow name hash scope fuel
  | none => do
    let kind ← token
    if kind ≠ .beginObject ∧ kind ≠ .beginArray then
      skipValue
      return .nothing
    modify fun cursor => { cursor with deepScope := some cursor.depth }
    seekBelow name hash cursor.depth fuel

theorem seekDeep_eq : seekDeep name hash =
    (do let cursor ← get; searchBelow name hash cursor (cursor.rest.length + 1)) := by
  funext cursor
  obtain ⟨length, text, depth, scope⟩ := cursor
  cases scope with
  | some scope => rfl
  | none =>
      -- To set the scope of the cursor at hand and to modify the cursor is the same.
      change (ite (_ ∧ _) _ _ : Movement Found) _ = (ite (_ ∧ _) _ _ : Movement Found) _
      split
      · rfl
      · rfl

theorem repeats_seekDeep (fuel : Nat) : Repeats 0 fuel (seekDeep name hash) (seekDeep name hash) := by
  rw [seekDeep_eq]
  refine repeats_search (fun cursor fuel fuel' => ?_) fun _ _ _ => rfl
  simp only [searchBelow]
  cases cursor.deepScope with
  | some scope => exact repeats_seekBelow name hash scope fuel fuel'
  | none =>
      refine repeats_token.bind fun kind => .ite (repeats_skipValue.bind fun _ => repeats_pure _).any ?_
      exact (repeats_modify fun _ _ _ => rfl).bind fun _ => repeats_seekBelow name hash cursor.depth fuel fuel'

end Fields

theorem repeats_seekItem (index fuel : Nat) : Repeats 0 fuel (seekItem index) (seekItem index) := by
  induction index generalizing fuel with
  | zero => exact (repeats_eat _).bind fun _ => repeats_pure _
  | succ index ih =>
      rw [seekItem]
      refine (repeats_eat _).bind fun ended => .ite (repeats_pure _) ?_
      exact (repeats_skipValue.bind fun _ => (repeats_eat _).bind fun _ => ih _).any

theorem repeats_seekIndex (index fuel : Nat) : Repeats 0 fuel (seekIndex index) (seekIndex index) := by
  rw [seekIndex]
  refine repeats_token.bind fun kind => .ite (repeats_skipValue.bind fun _ => repeats_pure _).any ?_
  exact (repeats_advance.bind fun _ => repeats_seekItem index _).any

theorem repeats_leaveTo (target fuel fuel' : Nat) : Repeats 0 fuel' (leaveTo target fuel) (leaveTo target fuel') := by
  induction fuel generalizing fuel' with
  | zero => exact repeats_fail _ _
  | succ fuel ih =>
      refine repeats_of_succ (fun fuel' => ?_) fuel'
      have hclose : Repeats 0 (fuel' + 1) (do
          advance
          if (← get).depth = target then return
          leaveTo target fuel) (do
          advance
          if (← get).depth = target then return
          leaveTo target fuel') := by
        refine (repeats_advance.bind fun _ => repeats_get (fun cursor => ?_) fun _ _ _ => rfl).any
        exact (repeats_pure _).ite (ih _)
      have hskip : Repeats 0 (fuel' + 1) (skipValue >>= fun _ => leaveTo target fuel)
          (skipValue >>= fun _ => leaveTo target fuel') := (repeats_skipValue.bind fun _ => ih _).any
      rw [leaveTo, leaveTo]
      refine repeats_token.bind fun kind => ?_
      cases kind with
      | endObject => exact hclose
      | endArray => exact hclose
      | beginObject => exact hskip
      | beginArray => exact hskip
      | string => exact hskip
      | _ => exact (repeats_advance.bind fun _ => ih _).any

theorem repeats_exitContainer (fuel : Nat) : Repeats 0 fuel exitContainer exitContainer :=
  repeats_search (fun cursor => repeats_leaveTo (cursor.depth - 1)) fun _ _ _ => rfl

/-! ### Segments -/

section Segments

variable (dropNulls : Bool) (name : HashedName)

theorem repeats_mapProperty (fuel fuel' : Nat) :
    Repeats 0 fuel' (mapProperty dropNulls name fuel) (mapProperty dropNulls name fuel') := by
  induction fuel generalizing fuel' with
  | zero => exact repeats_fail _ _
  | succ fuel ih =>
      refine repeats_of_succ (fun fuel' => ?_) fuel'
      have hread : Repeats 0 (fuel' + 1) (do
          let item ← readValue
          return (item.property dropNulls name).spliced dropNulls ++ (← mapProperty dropNulls name fuel)) (do
          let item ← readValue
          return (item.property dropNulls name).spliced dropNulls ++ (← mapProperty dropNulls name fuel')) :=
        (repeats_readValue.bind fun _ => (ih _).bind fun _ => repeats_pure _).any
      rw [mapProperty, mapProperty]
      refine repeats_token.bind fun kind => ?_
      cases kind with
      | endArray => exact (repeats_advance.bind fun _ => repeats_pure _).any
      | comma => exact (repeats_advance.bind fun _ => ih _).any
      | beginObject =>
          refine ((repeats_seekField name _ _).bind fun found => ?_).any
          cases found with
          | nothing => exact (ih _).bind fun _ => repeats_pure _
          | _ =>
              refine repeats_readValue.any.bind fun value => (repeats_exitContainer _).bind fun _ => ?_
              exact (repeats_pure _).bind fun _ => (ih _).bind fun _ => repeats_pure _
      | _ => exact hread

theorem repeats_deepValues (fuel fuel' : Nat) : Repeats 0 fuel' (deepValues name fuel) (deepValues name fuel') := by
  induction fuel generalizing fuel' with
  | zero => exact repeats_fail _ _
  | succ fuel ih =>
      refine repeats_of_succ (fun fuel' => ?_) fuel'
      have hvalues : Repeats 0 (fuel' + 1) (do
          let value ← readValue
          return value.matchItems ++ (← deepValues name fuel)) (do
          let value ← readValue
          return value.matchItems ++ (← deepValues name fuel')) :=
        (repeats_readValue.bind fun _ => (ih _).bind fun _ => repeats_pure _).any
      rw [deepValues, deepValues]
      refine (repeats_seekDeep name _ _).bind fun found => ?_
      cases found with
      | nothing => exact repeats_pure _
      | _ => exact hvalues

theorem repeats_follow (segment : Segment) (fuel : Nat) :
    Repeats 0 fuel (follow dropNulls segment) (follow dropNulls segment) := by
  have hvalue : ∀ {limit} (stop : Tree → Stop), Repeats 0 limit (do return stop (← readValue))
      (do return stop (← readValue)) := fun stop => (repeats_readValue.bind fun _ => repeats_pure _).any
  cases segment with
  | property name deep =>
      cases deep with
      | false =>
          rw [follow]
          refine repeats_token.bind fun kind => ?_
          cases kind with
          | beginObject =>
              refine ((repeats_seekField name _ _).bind fun found => ?_).any
              cases found <;> exact repeats_pure _
          | beginArray =>
              refine (repeats_advance.bind fun _ => repeats_rest
                (fun fuel => do return Stop.built (.array (← mapProperty dropNulls name fuel))) fun fuel fuel' => ?_).any
              exact (repeats_mapProperty dropNulls name fuel fuel').bind fun _ => repeats_pure _
          | _ => exact hvalue fun tree => .built (tree.property dropNulls name)
      | true =>
          refine repeats_rest (fun fuel => do return Stop.built (.array (← deepValues name fuel))) fun fuel fuel' => ?_
          exact (repeats_deepValues name fuel fuel').bind fun _ => repeats_pure _
  | index position =>
      simp only [follow]
      refine repeats_token.bind fun kind => .ite (hvalue fun tree => .built (tree.atIndex position)) ?_
      refine .ite (repeats_throw _ _) ((repeats_seekIndex _ _).bind fun found => ?_)
      exact .ite (repeats_pure _) (repeats_pure _)
  | _ => exact repeats_throw _ _

/-- The outcome of evaluating on a value at hand. -/
theorem repeats_evaluated (result : Except Fault Tree) (fuel : Nat) :
    Repeats 0 fuel (match result with
      | .ok found => pure found
      | .error fault => throw fault) (match result with
      | .ok found => pure found
      | .error fault => throw fault : Movement Tree) := by
  cases result with
  | ok found => exact repeats_pure found
  | error fault => exact repeats_throw fault _

theorem repeats_extractAll (segments : List Segment) (fuel : Nat) :
    Repeats 0 fuel (extractAll dropNulls segments) (extractAll dropNulls segments) := by
  induction segments generalizing fuel with
  | nil => exact repeats_readValue.any
  | cons segment segments ih =>
      rw [extractAll]
      refine .ite ((repeats_follow dropNulls segment _).bind fun stop => ?_) ?_
      · cases stop with
        | here => exact ih _
        | built tree => exact repeats_evaluated _ _
      · exact (repeats_readValue.bind fun tree => repeats_evaluated _ _).any

end Segments

end Movement

namespace Path

theorem repeats_extract (path : Path) (fuel : Nat) : Movement.Repeats 0 fuel path.extract path.extract := by
  rw [extract]
  refine .ite ?_ (Movement.repeats_extractAll path.dropNulls path.segments fuel)
  exact (Movement.repeats_readValue.bind fun tree => Movement.repeats_evaluated _ _).any

end Path

end TreeQuery
