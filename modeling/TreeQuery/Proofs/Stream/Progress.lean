import TreeQuery.Proofs.Stream.Checking

/-!
# The cursor gets on

Whatever is asked of a cursor, in whatever order and on whatever text, it comes to an end, and the cursor does not go
back and stays in the text.
-/

namespace TreeQuery

open Text

/-- What can be asked of a cursor: to move, to read, and to follow a path. -/
inductive Cursor.Action
  | advance
  | seekField (name : String) (hash : UInt64)
  | seekDeep (name : String) (hash : UInt64)
  | seekIndex (index : Nat)
  | skipValue
  | exitContainer
  | readValue
  | extract (path : Path)

/-- What a cursor answers. -/
inductive Cursor.Answer
  | done
  | found (kind : Found)
  | reached (isReached : Bool)
  | value (tree : Tree)

namespace Cursor.Action

/-- How many characters an action passes at least when it succeeds. -/
def used : Action → Nat
  | advance | skipValue | readValue => 1
  | _ => 0

def run : Action → Movement Answer
  | advance => do
    Movement.advance
    return .done
  | seekField name hash => return .found (← Movement.seekField name hash)
  | seekDeep name hash => return .found (← Movement.seekDeep name hash)
  | seekIndex index => return .reached (← Movement.seekIndex index)
  | skipValue => do
    Movement.skipValue
    return .done
  | exitContainer => do
    Movement.exitContainer
    return .done
  | readValue => return .value (← Movement.readValue)
  | extract path => return .value (← path.extract)

/-- The action on a cursor that checks itself. -/
def check : Action → ByteMovement Answer
  | advance => do
    ByteMovement.advance
    return .done
  | seekField name hash => return .found (← ByteMovement.seekField name hash)
  | seekDeep name hash => return .found (← ByteMovement.seekDeep name hash)
  | seekIndex index => return .reached (← ByteMovement.seekIndex index)
  | skipValue => do
    ByteMovement.skipValue
    return .done
  | exitContainer => do
    ByteMovement.exitContainer
    return .done
  | readValue => return .value (← ByteMovement.readValue)
  | extract path => return .value (← path.extractBytes)

theorem mirrors (action : Action) {text : List Char} {bound : Nat} :
    Movement.Mirrors text action.used bound action.check action.run := by
  cases action with
  | advance => exact Movement.mirrors_advance.bind fun _ => Movement.mirrors_pure _
  | seekField name hash => exact (Movement.mirrors_seekField name hash).any.bind fun _ => Movement.mirrors_pure _
  | seekDeep name hash => exact (Movement.mirrors_seekDeep name hash).bind fun _ => Movement.mirrors_pure _
  | seekIndex index => exact (Movement.mirrors_seekIndex index).bind fun _ => Movement.mirrors_pure _
  | skipValue => exact Movement.mirrors_skipValue.bind fun _ => Movement.mirrors_pure _
  | exitContainer => exact Movement.mirrors_exitContainer.bind fun _ => Movement.mirrors_pure _
  | readValue => exact Movement.mirrors_readValue.bind fun _ => Movement.mirrors_pure _
  | extract path => exact path.mirrors_extract.bind fun _ => Movement.mirrors_pure _

/-- Where a movement got to, whether it succeeded or not. -/
def stateOf {ε σ α : Type} : EStateM.Result ε σ α → σ
  | .ok _ state => state
  | .error _ state => state

/-- Where actions lead, each of them from where the one before got to. -/
def perform {ε σ : Type} (act : Action → EStateM ε σ Answer) (actions : List Action) (start : σ) : σ :=
  actions.foldl (fun state action => stateOf ((act action).run state)) start

section Steps

variable {text : List Char} {cursor : Cursor}

theorem mirrorsAt (action : Action) (hin : cursor.In text) :
    Movement.MirrorsAt text action.used cursor action.check action.run :=
  action.mirrors cursor hin (Nat.lt_succ_self _)

theorem passes_stateOf (action : Action) (hin : cursor.In text) :
    cursor.Passes 0 (stateOf (action.run.run cursor)) := by
  have hlands := (action.mirrorsAt hin).lands
  generalize action.run.run cursor = result at hlands ⊢
  cases result with
  | ok answer next => exact Cursor.Passes.mono hlands (Nat.zero_le _)
  | error fault next => exact hlands

/-- A checked action leads where the action leads. -/
theorem stateOf_check (action : Action) (hin : cursor.In text) :
    stateOf (action.check.run (cursor.toBytes text)) = (stateOf (action.run.run cursor)).toBytes text := by
  rw [(action.mirrorsAt hin).run_eq]
  cases action.run.run cursor <;> rfl

theorem perform_check (actions : List Action) (hin : cursor.In text) :
    perform check actions (cursor.toBytes text) = (perform run actions cursor).toBytes text ∧
      (perform run actions cursor).In text := by
  induction actions generalizing cursor with
  | nil => exact ⟨rfl, hin⟩
  | cons action actions ih =>
      have hnext := ih (hin.passes (action.passes_stateOf hin))
      rw [← action.stateOf_check hin] at hnext
      exact hnext

end Steps

end Cursor.Action

theorem Cursor.in_ofString (text : String) : (Cursor.ofString text).In text.toList :=
  ⟨rfl, List.dropWhile_suffix _⟩

theorem ByteCursor.ofString_eq (text : String) :
    ByteCursor.ofString text = (Cursor.ofString text).toBytes text.toList :=
  congrArg (fun place => ByteCursor.mk _ place 0 none) (Movement.passWhile_isBlank [] text.toList)

/-- **The cursor gets on and stays in the text.** On every text and after any actions, whether they succeeded or not,
an action, be it to follow a path, has the same outcome on the cursor that checks itself as on the cursor, and no check
finds anything: every loop ends within a round for each byte left and one more, so that the action ends, its slices lie
in the text and are texts, and no counter falls below zero. The place does not go down and is not beyond the text, and
it goes up when the cursor has advanced, or has skipped or read a value. -/
theorem Cursor.Action.outcome_of_performed (text : String) (actions : List Action) (action : Action) :
    let cursor := perform run actions (Cursor.ofString text)
    let checked := perform check actions (ByteCursor.ofString text)
    action.check.run checked = Movement.toBytes text.toList (action.run.run cursor) ∧
      (∀ breach last, action.check.run checked ≠ .error (.inl breach) last) ∧
      match action.run.run cursor with
      | .ok _ next => cursor.position + action.used ≤ next.position ∧ next.position ≤ text.utf8ByteSize
      | .error _ next => cursor.position ≤ next.position ∧ next.position ≤ text.utf8ByteSize := by
  intro cursor checked
  obtain ⟨hchecked, hin⟩ := perform_check actions (Cursor.in_ofString text)
  rw [← ByteCursor.ofString_eq] at hchecked
  obtain ⟨hrun, hlands⟩ := action.mirrorsAt hin
  rw [← hchecked] at hrun
  have hsize := utf8ByteSize_ofList text.toList
  rw [String.ofList_toList] at hsize
  refine ⟨hrun, fun breach last => ?_, ?_⟩
  · rw [show checked = perform check actions (ByteCursor.ofString text) from rfl, hrun]
    exact Movement.toBytes_ne _ _ breach last
  · rw [hsize]
    change Movement.Lands action.used cursor (action.run.run cursor) at hlands
    cases houtcome : action.run.run cursor with
    | ok answer next =>
        rw [houtcome] at hlands
        exact ⟨hin.position_add_le hlands, (hin.passes hlands).position_le⟩
    | error fault next =>
        rw [houtcome] at hlands
        exact ⟨hin.position_add_le hlands, (hin.passes hlands).position_le⟩

end TreeQuery
