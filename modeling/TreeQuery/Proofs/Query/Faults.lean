import TreeQuery.Path.Parser
import TreeQuery.Proofs.Running
import TreeQuery.Query.Eval

/-!
# Faults of evaluation

Five operators of paths do not take every kind of value: three functions and the two regular expressions. Evaluating a
path fails only where one of them that the path uses refuses a value, so that a path without them has a value on every
tree. There is no segment that evaluation does not know.
-/

namespace TreeQuery

/-- A value is of a kind that a regular expression or a function does not take. -/
def EvaluationFault.IsRefusal : EvaluationFault → Prop
  | rlike _ | regex _ => True
  | function name _ => name ∈ ["floor", "max", "min"]
  | incomparable name _ _ => name ∈ ["max", "min"]
  | negativeIndex | notStreamed _ => False

def Fault.IsRefusal : Fault → Prop
  | evaluation cause => cause.IsRefusal
  | _ => False

/-- Fails by refusing a value, if at all. -/
abbrev Refuses {α : Type} (result : Except Fault α) : Prop := Meets (fun _ => True) Fault.IsRefusal result

/-! ### Operators that refuse values -/

/-- The operators that do not take every kind of value. -/
inductive PartialOperator
  | floor
  | max
  | min
  | rlike
  | regex
deriving DecidableEq, Repr

/-- The faults that each operator ends in. -/
inductive PartialOperator.Refuses : PartialOperator → EvaluationFault → Prop
  | floor (kind : String) : Refuses floor (.function "floor" kind)
  | max (kind : String) : Refuses max (.function "max" kind)
  | maxOf (left right : String) : Refuses max (.incomparable "max" left right)
  | min (kind : String) : Refuses min (.function "min" kind)
  | minOf (left right : String) : Refuses min (.incomparable "min" left right)
  | rlike (kind : String) : Refuses rlike (.rlike kind)
  | regex (kind : String) : Refuses regex (.regex kind)

theorem PartialOperator.Refuses.isRefusal {operator : PartialOperator} {cause : EvaluationFault}
    (hrefuses : operator.Refuses cause) : cause.IsRefusal := by
  cases hrefuses with
  | rlike | regex => trivial
  | floor | max | maxOf | min | minOf => simp [EvaluationFault.IsRefusal]

def PathFunction.partialOperators : PathFunction → List PartialOperator
  | floor => [.floor]
  | max => [.max]
  | min => [.min]
  | size | kind | keySet => []

mutual

/-- The operators of a filter that may refuse a value, those of the paths that it refers to included. -/
def Filter.partialOperators : Filter → List PartialOperator
  | .rlike .. => [.rlike]
  | .regex .. => [.regex]
  | .reference _ _ path => path.partialOperators
  | .group _ left right => left.partialOperators ++ right.partialOperators
  | _ => []

def Segment.partialOperators : Segment → List PartialOperator
  | .filter condition => condition.partialOperators
  | .function name => name.partialOperators
  | _ => []

def Segment.partialOperatorsOfAll : List Segment → List PartialOperator
  | [] => []
  | segment :: segments => segment.partialOperators ++ Segment.partialOperatorsOfAll segments

/-- The operators that a path uses, at any depth of its filters, and that may refuse a value. -/
def Path.partialOperators : Path → List PartialOperator
  | .mk _ segments _ _ => Segment.partialOperatorsOfAll segments

end

/-- One of the operators refuses a value. -/
def Fault.IsRefusalBy (operators : List PartialOperator) : Fault → Prop
  | evaluation cause => ∃ operator ∈ operators, operator.Refuses cause
  | _ => False

/-- Fails by one of the operators, if at all. -/
abbrev RefusesBy {α : Type} (operators : List PartialOperator) (result : Except Fault α) : Prop :=
  Meets (fun _ => True) (Fault.IsRefusalBy operators) result

variable {α : Type} {operators : List PartialOperator}

theorem refusesBy_ok (a : α) : RefusesBy operators (.ok a) := trivial

theorem refusesBy_error {operator : PartialOperator} {cause : EvaluationFault} (hrefuses : operator.Refuses cause)
    (hmem : operator ∈ operators) : RefusesBy operators (.error (.evaluation cause) : Except Fault α) :=
  ⟨operator, hmem, hrefuses⟩

theorem RefusesBy.refuses {result : Except Fault α} (hresult : RefusesBy operators result) : Refuses result := by
  refine hresult.imp fun fault hfault => ?_
  cases fault with
  | evaluation cause =>
      obtain ⟨operator, -, hrefuses⟩ := hfault
      exact hrefuses.isRefusal
  | _ => cases hfault

/-! ### Functions -/

namespace Tree

theorem refusesBy_floor (hmem : .floor ∈ operators) (tree : Tree) : RefusesBy operators tree.floor := by
  rw [floor.eq_def]
  split
  · exact refusesBy_ok _
  · exact refusesBy_ok _
  · split
    · exact refusesBy_ok _
    · exact refusesBy_error (.floor _) hmem

section Extremes

variable {wanted : Ordering} {name : String} {operator : PartialOperator}

theorem refusesBy_better (hmem : operator ∈ operators)
    (hitems : ∀ left right, operator.Refuses (.incomparable name left right)) (best item : Tree) :
    RefusesBy operators (better wanted name best item) := by
  rw [better]
  split
  · exact refusesBy_ok _
  · exact refusesBy_error (hitems _ _) hmem

theorem refusesBy_extreme (hmem : operator ∈ operators) (hkind : ∀ kind, operator.Refuses (.function name kind))
    (hitems : ∀ left right, operator.Refuses (.incomparable name left right)) (tree : Tree) :
    RefusesBy operators (tree.extreme wanted name) := by
  have hfold (items : List Tree) (best : Tree) : RefusesBy operators (items.foldlM (better wanted name) best) := by
    induction items generalizing best with
    | nil => exact refusesBy_ok best
    | cons item items ih =>
        rw [List.foldlM_cons]
        exact (refusesBy_better hmem hitems best item).bind fun found _ => ih found
  rw [extreme.eq_def]
  split
  · exact refusesBy_ok _
  · split
    · exact refusesBy_ok _
    · exact hfold _ _
  · exact refusesBy_error (hkind _) hmem

end Extremes

theorem refusesBy_rlikeHolds (hmem : .rlike ∈ operators) (pattern : Pattern) (negated : Bool) (value : Tree) :
    RefusesBy operators (value.rlikeHolds pattern negated) := by
  rw [rlikeHolds]
  split
  · exact refusesBy_ok _
  · split
    · exact refusesBy_ok _
    · exact refusesBy_error (.rlike _) hmem

theorem refusesBy_regexHolds (hmem : .regex ∈ operators) (pattern : Pattern) (value : Tree) :
    RefusesBy operators (value.regexHolds pattern) := by
  rw [regexHolds.eq_def]
  split
  · exact refusesBy_ok _
  · exact refusesBy_ok _
  · exact refusesBy_error (.regex _) hmem

end Tree

theorem PathFunction.refusesBy_apply {function : PathFunction} (hsub : function.partialOperators ⊆ operators)
    (tree : Tree) : RefusesBy operators (function.apply tree) := by
  cases function with
  | size => exact refusesBy_ok _
  | kind => exact refusesBy_ok _
  | floor => exact Tree.refusesBy_floor (hsub List.mem_cons_self) tree
  | max => exact Tree.refusesBy_extreme (hsub List.mem_cons_self) .max .maxOf tree
  | min => exact Tree.refusesBy_extreme (hsub List.mem_cons_self) .min .minOf tree
  | keySet =>
      rw [apply]
      split <;> exact refusesBy_ok _

/-! ### Paths -/

section Items

variable {test : Tree → Except Fault Bool}

theorem refusesBy_selectItems (htest : ∀ item, RefusesBy operators (test item)) (items : List Tree) :
    RefusesBy operators (selectItems test items) := by
  induction items with
  | nil => exact refusesBy_ok _
  | cons item items ih =>
      rw [selectItems]
      refine (htest item).bind fun passes _ => ?_
      split
      · exact ih.bind fun others _ => refusesBy_ok _
      · exact ih

theorem refusesBy_filterTree (htest : ∀ item, RefusesBy operators (test item)) (tree : Tree) :
    RefusesBy operators (filterTree test tree) := by
  rw [filterTree.eq_def]
  split
  · exact refusesBy_ok _
  · exact (refusesBy_selectItems htest _).map fun _ _ => trivial
  · refine (htest _).bind fun passes _ => ?_
    split <;> exact refusesBy_ok _

end Items

variable {root : Tree}

mutual

theorem Filter.refusesBy_holds (dropNulls : Bool) :
    ∀ (condition : Filter) (item : Tree), condition.partialOperators ⊆ operators →
      RefusesBy operators (condition.holds root dropNulls item)
  | .reference operand test path, item, hsub => by
      rw [Filter.partialOperators] at hsub
      rw [Filter.holds]
      split
      · exact refusesBy_ok _
      · exact (path.refusesBy_follow hsub).bind fun found _ => refusesBy_ok _
  | .group .and left right, item, hsub => by
      rw [Filter.partialOperators, List.append_subset] at hsub
      rw [Filter.holds]
      refine (left.refusesBy_holds dropNulls item hsub.1).bind fun passes _ => ?_
      split
      · exact right.refusesBy_holds dropNulls item hsub.2
      · exact refusesBy_ok _
  | .group .or left right, item, hsub => by
      rw [Filter.partialOperators, List.append_subset] at hsub
      rw [Filter.holds]
      refine (left.refusesBy_holds dropNulls item hsub.1).bind fun passes _ => ?_
      split
      · exact refusesBy_ok _
      · exact right.refusesBy_holds dropNulls item hsub.2
  | .rlike operand pattern negated, item, hsub => by
      rw [Filter.partialOperators] at hsub
      rw [Filter.holds]
      exact Tree.refusesBy_rlikeHolds (hsub List.mem_cons_self) _ _ _
  | .regex operand pattern, item, hsub => by
      rw [Filter.partialOperators] at hsub
      rw [Filter.holds]
      exact Tree.refusesBy_regexHolds (hsub List.mem_cons_self) _ _
  | .present _, _, _ | .absent _, _, _ | .integer .., _, _ | .decimal .., _, _ | .string .., _, _ | .bool .., _, _
  | .like .., _, _ | .integers .., _, _ | .strings .., _, _ | .nullableIntegers .., _, _ | .between .., _, _ => by
      rw [Filter.holds]
      exact refusesBy_ok _

theorem Segment.refusesBy_apply (dropNulls : Bool) :
    ∀ (segment : Segment) (tree : Tree), segment.partialOperators ⊆ operators →
      RefusesBy operators (segment.apply root dropNulls tree)
  | .filter condition, tree, hsub => by
      rw [Segment.partialOperators] at hsub
      rw [Segment.apply]
      exact refusesBy_filterTree (fun item => condition.refusesBy_holds dropNulls item hsub) tree
  | .function name, tree, hsub => by
      rw [Segment.partialOperators] at hsub
      rw [Segment.apply]
      exact name.refusesBy_apply hsub tree
  | .property _ false, _, _ | .property _ true, _, _ | .properties _, _, _ | .wildcard false _, _, _
  | .wildcard true _, _, _ | .index _, _, _ | .indices _, _, _ | .slice .., _, _ => by
      rw [Segment.apply]
      exact refusesBy_ok _

theorem Segment.refusesBy_applyAll (dropNulls : Bool) :
    ∀ (segments : List Segment) (tree : Tree), Segment.partialOperatorsOfAll segments ⊆ operators →
      RefusesBy operators (Segment.applyAll root dropNulls segments tree)
  | [], tree, _ => by
      rw [Segment.applyAll]
      exact refusesBy_ok tree
  | segment :: segments, tree, hsub => by
      rw [Segment.partialOperatorsOfAll, List.append_subset] at hsub
      rw [Segment.applyAll]
      exact (segment.refusesBy_apply dropNulls tree hsub.1).bind fun found _ =>
        Segment.refusesBy_applyAll dropNulls segments found hsub.2

theorem Path.refusesBy_follow :
    ∀ path : Path, path.partialOperators ⊆ operators → RefusesBy operators (path.follow root)
  | .mk _ segments _ dropNulls, hsub => by
      rw [Path.partialOperators] at hsub
      rw [Path.follow]
      exact Segment.refusesBy_applyAll dropNulls segments root hsub

end

theorem Segment.refuses_applyAll (dropNulls : Bool) (segments : List Segment) (tree : Tree) :
    Refuses (Segment.applyAll root dropNulls segments tree) :=
  (refusesBy_applyAll dropNulls segments tree (List.Subset.refl _)).refuses

namespace Path

theorem refusesBy_eval (path : Path) (root : Tree) : RefusesBy path.partialOperators (path.eval root) := by
  cases path with
  | mk text segments refers dropNulls =>
      exact Segment.refusesBy_applyAll dropNulls segments root (by rw [partialOperators]; exact List.Subset.refl _)

theorem refuses_eval (path : Path) (root : Tree) : Refuses (path.eval root) := (path.refusesBy_eval root).refuses

/-- **Absent data is never a fault.** A path that uses no operator that may refuse a value, in its filters or in the
paths that they refer to at any depth, has a value on every tree. What another path fails with is the refusal of an
operator that it uses. -/
theorem exists_eval (path : Path) :
    (path.partialOperators = [] → ∀ root, ∃ tree, path.eval root = .ok tree) ∧
      ∀ root fault, path.eval root = .error fault →
        ∃ operator ∈ path.partialOperators, ∃ cause, fault = .evaluation cause ∧ operator.Refuses cause := by
  have hfault : ∀ root fault, path.eval root = .error fault →
      ∃ operator ∈ path.partialOperators, ∃ cause, fault = .evaluation cause ∧ operator.Refuses cause := by
    intro root fault herror
    have hrefuses := path.refusesBy_eval root
    rw [herror] at hrefuses
    cases fault with
    | evaluation cause =>
        obtain ⟨operator, hmem, hrefuses⟩ := hrefuses
        exact ⟨operator, hmem, cause, rfl, hrefuses⟩
    | _ => cases hrefuses
  refine ⟨fun hnone root => ?_, hfault⟩
  cases heval : path.eval root with
  | ok tree => exact ⟨tree, rfl⟩
  | error fault =>
      obtain ⟨operator, hmem, -⟩ := hfault root fault heval
      rw [hnone] at hmem
      cases hmem

/-- A filter that compares with a filtered path, on a tree that has nothing of what is asked for. -/
theorem exists_eval_nested :
    ∃ path, compile "$..a[?(@.b > $.c[?(@.n in (1, null))][0] || @.d like '%x')].x[1:].size()" true = .ok path ∧
      path.refers = true ∧ path.partialOperators = [] ∧
      ∃ tree, path.eval (.object [("a", .array [.string "\x7b\"b\":1\x7d", .null, .array []])]) = .ok tree := by
  have hsome : (compile "$..a[?(@.b > $.c[?(@.n in (1, null))][0] || @.d like '%x')].x[1:].size()" true).toOption.map
      (fun path => (path.refers, path.partialOperators)) = some (true, []) := by
    decide +kernel
  obtain ⟨path, hpath, hfacts⟩ := Option.map_eq_some_iff.mp hsome
  obtain ⟨hrefers, hnone⟩ := Prod.mk.inj hfacts
  generalize compile "$..a[?(@.b > $.c[?(@.n in (1, null))][0] || @.d like '%x')].x[1:].size()" true = compiled at hpath
  cases compiled with
  | error fault => cases hpath
  | ok found =>
      cases hpath
      exact ⟨path, rfl, hrefers, hnone, (exists_eval path).1 hnone _⟩

end Path

end TreeQuery
