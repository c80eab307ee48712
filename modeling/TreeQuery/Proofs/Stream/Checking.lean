import TreeQuery.Proofs.Stream.ByteSteps

/-!
# No check finds anything

The searches of the cursor, and extraction over it, are mirrored among the bytes. Each round of a loop passes something
or is the last one, so that a loop ends before its rounds are used up.
-/

namespace TreeQuery

open Text

namespace Movement

open Cursor

variable {α β : Type} {text : List Char} {used bound : Nat}

/-! ### Loops -/

section Loops

variable {loop' : Nat → ByteMovement α} {loop : Nat → Movement α}

/-- A loop is mirrored if each of its rounds is, as long as the later ones are for fewer characters. -/
theorem mirrors_loop
    (hround : ∀ fuel rounds, Mirrors text 0 fuel (loop' rounds) (loop fuel) →
      Mirrors text 0 (fuel + 1) (loop' (rounds + 1)) (loop (fuel + 1)))
    {fuel rounds : Nat} (hrounds : fuel ≤ rounds) : Mirrors text 0 fuel (loop' rounds) (loop fuel) := by
  induction fuel generalizing rounds with
  | zero => exact fun _ _ hbound => absurd hbound (Nat.not_lt_zero _)
  | succ fuel ih =>
      obtain ⟨rounds, rfl⟩ := exists_eq_succ_of_lt hrounds
      exact hround fuel rounds (ih (Nat.le_of_succ_le_succ hrounds))

theorem mirrors_rounds (hloop : ∀ {fuel rounds}, fuel ≤ rounds → Mirrors text used fuel (loop' rounds) (loop fuel)) :
    Mirrors text used bound (do let rounds ← ByteMovement.rounds; loop' rounds)
      (do let text ← rest; loop (text.length + 1)) := by
  have hsearch := @mirrors_search _ text used bound (fun _ => loop') (fun _ => loop)
    fun cursor _ _ hin hbound hrounds => hloop hrounds cursor hin hbound
  exact fun cursor hin hbound => ⟨(hsearch cursor hin hbound).run_eq, (hsearch cursor hin hbound).lands⟩

end Loops

/-! ### Fields and items -/

section Fields

variable (name : String) (hash : UInt64)

theorem mirrors_seekEntry {fuel rounds : Nat} (hrounds : fuel ≤ rounds) :
    Mirrors text 0 fuel (ByteMovement.seekEntry name hash rounds) (seekEntry name hash fuel) := by
  refine mirrors_loop (fun fuel rounds hnext => ?_) hrounds
  have hvalue (key : String) : Mirrors text 0 fuel (if isKey name hash key then ByteMovement.found else do
      ByteMovement.skipValue
      let _ ← ByteMovement.eat .comma
      ByteMovement.seekEntry name hash rounds) (if isKey name hash key then found else do
      skipValue
      let _ ← eat .comma
      seekEntry name hash fuel) :=
    mirrors_found.ite (mirrors_skipValue.any.bind fun _ => (mirrors_eat _).bind fun _ => hnext)
  rw [ByteMovement.seekEntry, seekEntry]
  refine mirrors_token fun cursor hin hbound => ?_
  cases htoken : cursor.token with
  | endObject => exact (mirrors_advance.bind fun _ => mirrors_pure _).any cursor hin hbound
  | string =>
      refine ((mirrorsAt_readString hin htoken).bind hin hbound fun key => ?_).any
      exact (mirrors_eat _).bind fun colon => (mirrors_fail _).optional (hvalue key)
  | _ => exact mirrorsAt_fail _

theorem mirrors_seekField : Mirrors text 1 bound (ByteMovement.seekField name hash) (seekField name hash) := by
  rw [ByteMovement.seekField, seekField]
  refine mirrors_token fun cursor hin hbound => ?_
  refine .ite ((mirrors_skipValue.bind fun _ => mirrors_pure _) cursor hin hbound) ?_
  exact (mirrors_advance.bind fun _ => mirrors_rounds (mirrors_seekEntry name hash)) cursor hin hbound

theorem mirrors_endScope : Mirrors text 0 bound (do
    modify fun cursor : ByteCursor => { cursor with deepScope := none }
    return Found.nothing) (do
    modify fun cursor : Cursor => { cursor with deepScope := none }
    return Found.nothing) := by
  refine Mirrors.bind (mirrors_modify (fun cursor => ?_) fun cursor => ?_) fun _ => mirrors_pure _
  · rfl
  · exact ⟨rfl, List.suffix_refl _, Nat.le_refl _⟩

theorem mirrors_seekBelow (scope : Nat) {fuel rounds : Nat} (hrounds : fuel ≤ rounds) :
    Mirrors text 0 fuel (ByteMovement.seekBelow name hash scope rounds) (seekBelow name hash scope fuel) := by
  refine mirrors_loop (fun fuel rounds hnext => ?_) hrounds
  have hclose : Mirrors text 0 (fuel + 1) (do
      ByteMovement.advance
      if (← get).depth = scope then
        modify fun cursor => { cursor with deepScope := none }
        return .nothing
      ByteMovement.seekBelow name hash scope rounds) (do
      advance
      if (← get).depth = scope then
        modify fun cursor => { cursor with deepScope := none }
        return .nothing
      seekBelow name hash scope fuel) :=
    (mirrors_advance.bind fun _ => mirrors_get fun cursor hin hbound =>
      .ite (mirrors_endScope cursor hin hbound) (hnext cursor hin hbound)).any
  rw [ByteMovement.seekBelow, seekBelow]
  refine mirrors_token fun cursor hin hbound => ?_
  cases htoken : cursor.token with
  | finish => exact mirrors_endScope cursor hin hbound
  | endObject => exact hclose cursor hin hbound
  | endArray => exact hclose cursor hin hbound
  | string =>
      refine ((mirrorsAt_readString hin htoken).bind hin hbound fun key => ?_).any
      exact (mirrors_eat _).bind fun colon => mirrors_found.ite hnext
  | _ => exact (mirrors_advance.bind fun _ => hnext).any cursor hin hbound

theorem mirrors_seekDeep : Mirrors text 0 bound (ByteMovement.seekDeep name hash) (seekDeep name hash) := by
  unfold ByteMovement.seekDeep seekDeep
  refine mirrors_get fun cursor hin _ => ?_
  have hscope : (cursor.toBytes text).deepScope = cursor.deepScope := rfl
  have hrounds : cursor.rest.length + 1 ≤ (cursor.toBytes text).rounds := by
    rw [hin.rounds_toBytes]
    exact Nat.succ_le_succ (length_le_byteLength cursor.rest)
  cases hdeep : cursor.deepScope with
  | some scope =>
      simp only [hscope, hdeep]
      exact mirrors_seekBelow name hash scope hrounds cursor hin (Nat.lt_succ_self _)
  | none =>
      simp only [hscope, hdeep, hin.token_toBytes]
      split
      · exact (mirrors_skipValue.bind fun _ => mirrors_pure _).any cursor hin (Nat.lt_succ_self _)
      · have hset : MirrorsAt text 0 cursor (set { cursor.toBytes text with deepScope := some cursor.depth })
            (set { cursor with deepScope := some cursor.depth }) := ⟨rfl, rfl, List.suffix_refl _, Nat.le_refl _⟩
        exact hset.bind hin (Nat.lt_succ_self _) fun _ => mirrors_seekBelow name hash cursor.depth hrounds

end Fields

theorem mirrors_seekItem (index : Nat) : Mirrors text 0 bound (ByteMovement.seekItem index) (seekItem index) := by
  induction index generalizing bound with
  | zero => exact (mirrors_eat _).bind fun _ => mirrors_pure _
  | succ index ih =>
      rw [ByteMovement.seekItem, seekItem]
      refine (mirrors_eat _).bind fun ended => .ite (mirrors_pure _) ?_
      exact (mirrors_skipValue.bind fun _ => (mirrors_eat _).bind fun _ => ih).any

theorem mirrors_seekIndex (index : Nat) : Mirrors text 0 bound (ByteMovement.seekIndex index) (seekIndex index) := by
  rw [ByteMovement.seekIndex, seekIndex]
  refine mirrors_token fun cursor hin hbound => ?_
  refine .ite ((mirrors_skipValue.bind fun _ => mirrors_pure _).any cursor hin hbound) ?_
  exact (mirrors_advance.bind fun _ => mirrors_seekItem index).any cursor hin hbound

theorem mirrors_leaveTo (target : Nat) {fuel rounds : Nat} (hrounds : fuel ≤ rounds) :
    Mirrors text 0 fuel (ByteMovement.leaveTo target rounds) (leaveTo target fuel) := by
  refine mirrors_loop (fun fuel rounds hnext => ?_) hrounds
  have hclose : Mirrors text 0 (fuel + 1) (do
      ByteMovement.advance
      if (← get).depth = target then return
      ByteMovement.leaveTo target rounds) (do
      advance
      if (← get).depth = target then return
      leaveTo target fuel) :=
    (mirrors_advance.bind fun _ => mirrors_get fun cursor hin hbound =>
      .ite (mirrorsAt_pure _) (hnext cursor hin hbound)).any
  have hskip : Mirrors text 0 (fuel + 1) (ByteMovement.skipValue >>= fun _ => ByteMovement.leaveTo target rounds)
      (skipValue >>= fun _ => leaveTo target fuel) := (mirrors_skipValue.bind fun _ => hnext).any
  rw [ByteMovement.leaveTo, leaveTo]
  refine mirrors_token fun cursor hin hbound => ?_
  cases cursor.token with
  | endObject => exact hclose cursor hin hbound
  | endArray => exact hclose cursor hin hbound
  | beginObject => exact hskip cursor hin hbound
  | beginArray => exact hskip cursor hin hbound
  | string => exact hskip cursor hin hbound
  | _ => exact (mirrors_advance.bind fun _ => hnext).any cursor hin hbound

theorem mirrors_exitContainer : Mirrors text 0 bound ByteMovement.exitContainer exitContainer :=
  mirrors_search fun cursor _ _ hin hbound hrounds => mirrors_leaveTo (cursor.depth - 1) hrounds cursor hin hbound

/-! ### Segments -/

section Segments

variable (dropNulls : Bool) (name : HashedName)

theorem mirrors_mapProperty {fuel rounds : Nat} (hrounds : fuel ≤ rounds) :
    Mirrors text 0 fuel (ByteMovement.mapProperty dropNulls name rounds) (mapProperty dropNulls name fuel) := by
  refine mirrors_loop (fun fuel rounds hnext => ?_) hrounds
  have hread : Mirrors text 0 (fuel + 1) (do
      let item ← ByteMovement.readValue
      return (item.property dropNulls name).spliced dropNulls ++ (← ByteMovement.mapProperty dropNulls name rounds)) (do
      let item ← readValue
      return (item.property dropNulls name).spliced dropNulls ++ (← mapProperty dropNulls name fuel)) :=
    (mirrors_readValue.bind fun _ => hnext.bind fun _ => mirrors_pure _).any
  rw [ByteMovement.mapProperty, mapProperty]
  refine mirrors_token fun cursor hin hbound => ?_
  cases cursor.token with
  | endArray => exact (mirrors_advance.bind fun _ => mirrors_pure _).any cursor hin hbound
  | comma => exact (mirrors_advance.bind fun _ => hnext).any cursor hin hbound
  | beginObject =>
      refine ((mirrors_seekField name _).bind fun found => ?_).any cursor hin hbound
      cases found with
      | nothing => exact hnext.bind fun _ => mirrors_pure _
      | _ =>
          refine mirrors_readValue.any.bind fun value => mirrors_exitContainer.bind fun _ => ?_
          exact (mirrors_pure _).bind fun _ => hnext.bind fun _ => mirrors_pure _
  | _ => exact hread cursor hin hbound

theorem mirrors_deepValues {fuel rounds : Nat} (hrounds : fuel ≤ rounds) :
    Mirrors text 0 fuel (ByteMovement.deepValues name rounds) (deepValues name fuel) := by
  refine mirrors_loop (fun fuel rounds hnext => ?_) hrounds
  have hvalues : Mirrors text 0 (fuel + 1) (do
      let value ← ByteMovement.readValue
      return value.matchItems ++ (← ByteMovement.deepValues name rounds)) (do
      let value ← readValue
      return value.matchItems ++ (← deepValues name fuel)) :=
    (mirrors_readValue.bind fun _ => hnext.bind fun _ => mirrors_pure _).any
  rw [ByteMovement.deepValues, deepValues]
  refine (mirrors_seekDeep name _).bind fun found => ?_
  cases found with
  | nothing => exact mirrors_pure _
  | _ => exact hvalues

theorem mirrors_follow (segment : Segment) :
    Mirrors text 0 bound (ByteMovement.follow dropNulls segment) (follow dropNulls segment) := by
  have hvalue : ∀ {limit} (stop : Tree → Stop), Mirrors text 0 limit (do return stop (← ByteMovement.readValue))
      (do return stop (← readValue)) := fun stop => (mirrors_readValue.bind fun _ => mirrors_pure _).any
  cases segment with
  | property name deep =>
      cases deep with
      | false =>
          rw [ByteMovement.follow, follow]
          refine mirrors_token fun cursor hin hbound => ?_
          cases cursor.token with
          | beginObject =>
              refine ((mirrors_seekField name _).bind fun found => ?_).any cursor hin hbound
              cases found <;> exact mirrors_pure _
          | beginArray =>
              have hvalues : ∀ {fuel rounds}, fuel ≤ rounds → Mirrors text 0 fuel
                  (do return Stop.built (.array (← ByteMovement.mapProperty dropNulls name rounds)))
                  (do return Stop.built (.array (← mapProperty dropNulls name fuel))) := fun hrounds =>
                (mirrors_mapProperty dropNulls name hrounds).bind fun _ => mirrors_pure _
              exact (mirrors_advance.bind fun _ => mirrors_rounds hvalues).any cursor hin hbound
          | _ => exact hvalue (fun tree => .built (tree.property dropNulls name)) cursor hin hbound
      | true =>
          have hvalues : ∀ {fuel rounds}, fuel ≤ rounds → Mirrors text 0 fuel
              (do return Stop.built (.array (← ByteMovement.deepValues name rounds)))
              (do return Stop.built (.array (← deepValues name fuel))) := fun hrounds =>
            (mirrors_deepValues name hrounds).bind fun _ => mirrors_pure _
          exact mirrors_rounds hvalues
  | index position =>
      simp only [ByteMovement.follow, follow]
      refine mirrors_token fun cursor hin hbound => ?_
      refine .ite (hvalue (fun tree => .built (tree.atIndex position)) cursor hin hbound) ?_
      refine .ite (mirrorsAt_throw _) ((mirrors_seekIndex _).bind (fun found => ?_) cursor hin hbound)
      exact .ite (mirrors_pure _) (mirrors_pure _)
  | _ => exact mirrors_throw _

/-- The outcome of evaluating on a value at hand. -/
theorem mirrors_evaluated (result : Except Fault Tree) :
    Mirrors text 0 bound (match result with
      | .ok found => pure found
      | .error fault => ByteMovement.refuse fault) (match result with
      | .ok found => pure found
      | .error fault => throw fault : Movement Tree) := by
  cases result with
  | ok found => exact mirrors_pure found
  | error fault => exact mirrors_throw fault

theorem mirrors_extractAll (segments : List Segment) :
    Mirrors text 0 bound (ByteMovement.extractAll dropNulls segments) (extractAll dropNulls segments) := by
  induction segments generalizing bound with
  | nil => exact mirrors_readValue.any
  | cons segment segments ih =>
      rw [ByteMovement.extractAll, extractAll]
      refine .ite ((mirrors_follow dropNulls segment).bind fun stop => ?_) ?_
      · cases stop with
        | here => exact ih
        | built tree => exact mirrors_evaluated _
      · exact (mirrors_readValue.bind fun tree => mirrors_evaluated _).any

end Segments

end Movement

theorem Path.mirrors_extract (path : Path) {text : List Char} {bound : Nat} :
    Movement.Mirrors text 0 bound path.extractBytes path.extract := by
  rw [extractBytes, extract]
  refine .ite ?_ (Movement.mirrors_extractAll path.dropNulls path.segments)
  exact (Movement.mirrors_readValue.bind fun tree => Movement.mirrors_evaluated _).any

end TreeQuery
