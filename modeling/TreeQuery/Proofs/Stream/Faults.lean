import TreeQuery.Proofs.Query.Faults
import TreeQuery.Stream.Extract

/-!
# Faults of extraction

Extraction stops at text that is not the JSON that was asked for, or refuses a value as evaluation does. It never comes
to a segment that the cursor cannot follow.
-/

namespace TreeQuery

/-- The text is not the JSON that was asked for, or a value is refused. -/
def Fault.StopsReading : Fault → Prop
  | cursor _ _ | malformedJson => True
  | fault => fault.IsRefusal

namespace Movement

variable {α β : Type}

/-- Fails by stopping, if at all. -/
def Stops (movement : Movement α) : Prop :=
  ∀ cursor fault cursor', movement.run cursor = .error fault cursor' → fault.StopsReading

section Judgement

variable {movement : Movement α} {next : α → Movement β}

theorem stops_pure (a : α) : Stops (pure a) := by
  rintro _ _ _ ⟨⟩

theorem stops_throw {fault : Fault} (hfault : fault.StopsReading) : Stops (throw fault : Movement α) := by
  rintro _ _ _ ⟨⟩
  exact hfault

theorem Stops.bind (hmovement : Stops movement) (hnext : ∀ a, Stops (next a)) : Stops (movement >>= next) := by
  intro cursor fault cursor' hrun
  rw [EStateM.run_bind] at hrun
  cases hfirst : movement.run cursor with
  | ok a middle =>
      rw [hfirst] at hrun
      exact hnext a middle fault cursor' hrun
  | error cause middle =>
      rw [hfirst] at hrun
      cases hrun
      exact hmovement cursor fault cursor' hfirst

theorem Stops.optional {condition : Prop} [Decidable condition] {movement : Movement Unit} {rest : Movement β}
    (hmovement : Stops movement) (hrest : Stops rest) :
    Stops (if condition then movement >>= fun _ => rest else rest) := by
  split
  · exact hmovement.bind fun _ => hrest
  · exact hrest

theorem stops_get : Stops get := by
  rintro _ _ _ ⟨⟩

theorem stops_set (cursor : Cursor) : Stops (set cursor) := by
  rintro _ _ _ ⟨⟩

theorem stops_modify (change : Cursor → Cursor) : Stops (modify change) := by
  rintro _ _ _ ⟨⟩

end Judgement

/-! ### Steps -/

theorem stops_token : Stops token := by
  rintro _ _ _ ⟨⟩

theorem stops_rest : Stops rest := by
  rintro _ _ _ ⟨⟩

theorem stops_moveTo (text : List Char) : Stops (moveTo text) := stops_modify _

theorem stops_fail (cause : CursorFault) : Stops (fail cause : Movement α) :=
  stops_get.bind fun _ => stops_throw trivial

theorem stops_valueText : Stops valueText := by
  rw [valueText]
  refine stops_rest.bind fun text => ?_
  split
  · exact stops_pure _
  · exact stops_fail _

theorem stops_skipValue : Stops skipValue := by
  rw [skipValue]
  exact stops_valueText.bind fun _ => stops_moveTo _

theorem stops_readValue : Stops readValue := by
  rw [readValue]
  refine stops_valueText.bind fun found => ?_
  obtain ⟨text, rest⟩ := found
  dsimp only
  split
  · exact (stops_moveTo _).bind fun _ => stops_pure _
  · exact stops_throw trivial

theorem stops_advance : Stops advance := by
  have hpass : Stops (do moveTo ((← rest).drop 1)) := stops_rest.bind fun _ => stops_moveTo _
  rw [advance]
  refine stops_token.bind fun found => ?_
  split
  · exact stops_fail _
  · exact stops_fail _
  · exact (stops_modify _).bind fun _ => hpass
  · exact (stops_modify _).bind fun _ => hpass
  · exact (stops_modify _).bind fun _ => hpass
  · exact (stops_modify _).bind fun _ => hpass
  · exact hpass
  · exact hpass
  all_goals exact stops_skipValue

theorem stops_readString : Stops readString := by
  rw [readString]
  refine stops_rest.bind fun text => ?_
  split
  · exact stops_fail _
  · split
    · exact (stops_moveTo _).bind fun _ => stops_pure _
    · exact stops_throw trivial

theorem stops_eat (separator : Token) : Stops (eat separator) := by
  rw [eat]
  refine stops_token.bind fun found => ?_
  split
  · exact stops_advance.bind fun _ => stops_pure _
  · exact stops_pure _

theorem stops_found : Stops found := by
  rw [found]
  refine stops_token.bind fun kind => ?_
  split <;> exact stops_pure _

/-! ### Fields and items -/

section Fields

variable (name : String) (hash : UInt64)

theorem stops_seekEntry (fuel : Nat) : Stops (seekEntry name hash fuel) := by
  induction fuel with
  | zero => exact stops_fail _
  | succ fuel ih =>
      have hvalue (key : String) : Stops (if isKey name hash key then found else do
          skipValue
          let _ ← eat .comma
          seekEntry name hash fuel) := by
        split
        · exact stops_found
        · exact stops_skipValue.bind fun _ => (stops_eat _).bind fun _ => ih
      rw [seekEntry]
      refine stops_token.bind fun kind => ?_
      split
      · exact stops_advance.bind fun _ => stops_pure _
      · exact stops_readString.bind fun key => (stops_eat _).bind fun colon => (stops_fail _).optional (hvalue key)
      · exact stops_fail _

theorem stops_seekField : Stops (seekField name hash) := by
  rw [seekField]
  refine stops_token.bind fun kind => ?_
  split
  · exact stops_skipValue.bind fun _ => stops_pure _
  · exact stops_advance.bind fun _ => stops_rest.bind fun _ => stops_seekEntry name hash _

theorem stops_seekBelow (scope fuel : Nat) : Stops (seekBelow name hash scope fuel) := by
  induction fuel with
  | zero => exact stops_fail _
  | succ fuel ih =>
      have hclose : Stops (do
          advance
          if (← get).depth = scope then
            modify fun cursor => { cursor with deepScope := none }
            return .nothing
          seekBelow name hash scope fuel) := by
        refine stops_advance.bind fun _ => stops_get.bind fun cursor => ?_
        split
        · exact (stops_modify _).bind fun _ => stops_pure _
        · exact ih
      rw [seekBelow]
      refine stops_token.bind fun kind => ?_
      split
      · exact (stops_modify _).bind fun _ => stops_pure _
      · exact hclose
      · exact hclose
      · refine stops_readString.bind fun key => (stops_eat _).bind fun colon => ?_
        split
        · exact stops_found
        · exact ih
      · exact stops_advance.bind fun _ => ih

theorem stops_seekDeep : Stops (seekDeep name hash) := by
  rw [seekDeep]
  refine stops_get.bind fun cursor => ?_
  split
  · exact stops_seekBelow name hash _ _
  · split
    · exact stops_skipValue.bind fun _ => stops_pure _
    · exact (stops_set _).bind fun _ => stops_seekBelow name hash _ _

end Fields

theorem stops_seekItem (index : Nat) : Stops (seekItem index) := by
  induction index with
  | zero => exact (stops_eat _).bind fun _ => stops_pure _
  | succ index ih =>
      rw [seekItem]
      refine (stops_eat _).bind fun ended => ?_
      split
      · exact stops_pure _
      · exact stops_skipValue.bind fun _ => (stops_eat _).bind fun _ => ih

theorem stops_seekIndex (index : Nat) : Stops (seekIndex index) := by
  rw [seekIndex]
  refine stops_token.bind fun kind => ?_
  split
  · exact stops_skipValue.bind fun _ => stops_pure _
  · exact stops_advance.bind fun _ => stops_seekItem index

theorem stops_leaveTo (target fuel : Nat) : Stops (leaveTo target fuel) := by
  induction fuel with
  | zero => exact stops_fail _
  | succ fuel ih =>
      have hclose : Stops (do
          advance
          if (← get).depth = target then return
          leaveTo target fuel) := by
        refine stops_advance.bind fun _ => stops_get.bind fun cursor => ?_
        split
        · exact stops_pure _
        · exact ih
      rw [leaveTo]
      refine stops_token.bind fun kind => ?_
      split
      · exact hclose
      · exact hclose
      · exact stops_skipValue.bind fun _ => ih
      · exact stops_skipValue.bind fun _ => ih
      · exact stops_skipValue.bind fun _ => ih
      · exact stops_advance.bind fun _ => ih

theorem stops_exitContainer : Stops exitContainer := by
  rw [exitContainer]
  exact stops_get.bind fun cursor => stops_leaveTo _ _

/-! ### Segments -/

section Segments

variable (dropNulls : Bool) (name : HashedName)

theorem stops_mapProperty (fuel : Nat) : Stops (mapProperty dropNulls name fuel) := by
  induction fuel with
  | zero => exact stops_fail _
  | succ fuel ih =>
      rw [mapProperty]
      refine stops_token.bind fun kind => ?_
      split
      · exact stops_advance.bind fun _ => stops_pure _
      · exact stops_advance.bind fun _ => ih
      · refine (stops_seekField name _).bind fun kind => ?_
        split
        · exact ih.bind fun _ => stops_pure _
        · refine stops_readValue.bind fun value => stops_exitContainer.bind fun _ => ?_
          exact ih.bind fun _ => stops_pure _
      · exact stops_readValue.bind fun _ => ih.bind fun _ => stops_pure _

theorem stops_deepValues (fuel : Nat) : Stops (deepValues name fuel) := by
  induction fuel with
  | zero => exact stops_fail _
  | succ fuel ih =>
      rw [deepValues]
      refine (stops_seekDeep name _).bind fun kind => ?_
      split
      · exact stops_pure _
      · exact stops_readValue.bind fun _ => ih.bind fun _ => stops_pure _

/-- Of the segments that the cursor can follow none falls through, and no index is negative. -/
theorem stops_follow {segment : Segment} (hstreamed : segment.isStreamed = true) :
    Stops (follow dropNulls segment) := by
  cases segment with
  | property name deep =>
      cases deep with
      | false =>
          rw [follow]
          refine stops_token.bind fun kind => ?_
          split
          · refine (stops_seekField name _).bind fun kind => ?_
            split <;> exact stops_pure _
          · refine stops_advance.bind fun _ => stops_rest.bind fun _ => ?_
            exact (stops_mapProperty dropNulls name _).bind fun _ => stops_pure _
          · exact stops_readValue.bind fun _ => stops_pure _
      | true => exact stops_rest.bind fun _ => (stops_deepValues name _).bind fun _ => stops_pure _
  | index position =>
      have hposition : ¬position < 0 := Int.not_lt.mpr (by simpa [Segment.isStreamed] using hstreamed)
      simp only [follow, hposition, if_false]
      refine stops_token.bind fun kind => ?_
      split
      · exact stops_readValue.bind fun _ => stops_pure _
      · refine (stops_seekIndex _).bind fun found => ?_
        split <;> exact stops_pure _
  | _ => cases hstreamed

/-- The outcome of evaluating on a value at hand. -/
theorem stops_evaluated {result : Except Fault Tree} (hrefuses : Refuses result) :
    Stops (match result with
      | .ok found => pure found
      | .error fault => throw fault) := by
  cases result with
  | ok found => exact stops_pure found
  | error fault =>
      refine stops_throw ?_
      cases fault <;> first | exact hrefuses | trivial

theorem stops_finish (segments : List Segment) (tree : Tree) : Stops (finish dropNulls segments tree) :=
  stops_evaluated (Segment.refuses_applyAll dropNulls segments tree)

theorem stops_extractAll (segments : List Segment) : Stops (extractAll dropNulls segments) := by
  induction segments with
  | nil => exact stops_readValue
  | cons segment segments ih =>
      rw [extractAll]
      split
      · next hstreamed =>
          refine (stops_follow dropNulls hstreamed).bind fun stop => ?_
          split
          · exact ih
          · exact stops_finish dropNulls segments _
      · exact stops_readValue.bind fun tree => stops_finish dropNulls _ tree

end Segments

end Movement

namespace Path

theorem stops_extract (path : Path) : Movement.Stops path.extract := by
  rw [extract]
  by_cases hwhole : path.needsWhole = true
  · rw [if_pos hwhole]
    refine Movement.Stops.bind Movement.stops_readValue fun tree => ?_
    exact Movement.stops_evaluated (path.refuses_eval tree)
  · rw [if_neg hwhole]
    exact Movement.stops_extractAll path.dropNulls path.segments

end Path

end TreeQuery
