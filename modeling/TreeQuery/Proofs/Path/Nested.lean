import TreeQuery.Proofs.Path.Compiling
import TreeQuery.Proofs.Stream.Faults

/-!
# Paths inside paths

What a text compiles to depends on how the paths in its filters compile, and on nothing else. So every path in a filter
is what its own text compiles to, and is well formed like the path around it.
-/

namespace TreeQuery

namespace Scan

section Judgement

variable {α β : Type} {allowed given given' : Path → Prop} {mentions : α → Path → Prop} {mentions' : β → Path → Prop}
  {scan scan' : Parse α} {next next' : α → Parse β}

/-- What the first scan gives if it succeeds mentions the given paths, and the second scan gives the same as long as
all that is mentioned is allowed. -/
def Carries (allowed given : Path → Prop) (mentions : α → Path → Prop) (scan scan' : Parse α) : Prop :=
  ∀ s a s', scan.run s = .ok a s' → (∀ inner, given inner → mentions a inner) ∧
    ((∀ inner, mentions a inner → allowed inner) → scan'.run s = .ok a s')

abbrev nothing : Path → Prop := fun _ => False

theorem carries_refl (scan : Parse α) : Carries allowed nothing mentions scan scan :=
  fun _ _ _ hrun => ⟨fun _ => False.elim, fun _ => hrun⟩

theorem carries_pure {a : α} (hgiven : ∀ inner, given inner → mentions a inner) :
    Carries allowed given mentions (pure a) (pure a) := by
  rintro s _ _ ⟨⟩
  exact ⟨hgiven, fun _ => rfl⟩

theorem Carries.imp (hscan : Carries allowed given' mentions scan scan') (himp : ∀ inner, given inner → given' inner) :
    Carries allowed given mentions scan scan' := fun s a s' hrun =>
  ⟨fun inner hinner => (hscan s a s' hrun).1 inner (himp inner hinner), (hscan s a s' hrun).2⟩

/-- Paths that are mentioned already stay so. -/
theorem Carries.keep (hscan : Carries allowed nothing mentions scan scan') (given : Path → Prop) :
    Carries allowed given (fun a inner => given inner ∨ mentions a inner) scan scan' := fun s a s' hrun =>
  ⟨fun _ => .inl, fun hallowed => (hscan s a s' hrun).2 fun inner hinner => hallowed inner (.inr hinner)⟩

theorem Carries.bind (hscan : Carries allowed given mentions scan scan')
    (hnext : ∀ a, Carries allowed (mentions a) mentions' (next a) (next' a)) :
    Carries allowed given mentions' (scan >>= next) (scan' >>= next') := by
  intro s b s' hrun
  obtain ⟨a, t, hfirst, hsecond⟩ := run_bind_eq_ok.mp hrun
  obtain ⟨hgiven, hfirst'⟩ := hscan s a t hfirst
  obtain ⟨hkept, hsecond'⟩ := hnext a t b s' hsecond
  refine ⟨fun inner hinner => hkept inner (hgiven inner hinner), fun hallowed => ?_⟩
  rw [run_bind_eq_ok]
  exact ⟨a, t, hfirst' fun inner hinner => hallowed inner (hkept inner hinner), hsecond' hallowed⟩

/-- A step that has nothing to do with paths. -/
theorem Carries.step (scan : Parse α) (hnext : ∀ a, Carries allowed given mentions' (next a) (next' a)) :
    Carries allowed given mentions' (scan >>= next) (scan >>= next') := by
  intro s b s' hrun
  obtain ⟨a, t, hfirst, hsecond⟩ := run_bind_eq_ok.mp hrun
  obtain ⟨hkept, hsecond'⟩ := hnext a t b s' hsecond
  exact ⟨hkept, fun hallowed => run_bind_eq_ok.mpr ⟨a, t, hfirst, hsecond' hallowed⟩⟩

end Judgement

section Readers

variable {compile compile' : String → Except Fault Path} {allowed : Path → Prop}

/-- Allowed paths compile to the same with the second compiler. -/
def Extends (allowed : Path → Prop) (compile compile' : String → Except Fault Path) : Prop :=
  ∀ text path, compile text = .ok path → allowed path → compile' text = .ok path

abbrev inFilter (condition : Filter) (inner : Path) : Prop := condition.Mentions inner

abbrev inSegment (segment : Segment) (inner : Path) : Prop := segment.Mentions inner

abbrev inOption (found : Option Segment) (inner : Path) : Prop := ∃ segment ∈ found, segment.Mentions inner

abbrev inSegments (segments : List Segment) (inner : Path) : Prop := ∃ segment ∈ segments, segment.Mentions inner

theorem carries_referenceFilter (hextends : Extends allowed compile compile') (operand : Operand)
    (operator : Operator) :
    Carries allowed nothing inFilter (referenceFilter compile operand operator)
      (referenceFilter compile' operand operator) := by
  rw [referenceFilter, referenceFilter]
  refine .step _ fun test => .step _ fun start => .step _ fun text => ?_
  intro s found s' hrun
  refine ⟨fun _ => False.elim, fun hallowed => ?_⟩
  split at hrun
  · next path hpath =>
      cases hrun
      rw [hextends text path hpath (hallowed path (.reference operand test))]
      rfl
  · cases hrun
  · cases hrun

theorem carries_rightSide (hextends : Extends allowed compile compile') (operand : Operand) (operator : Operator) :
    Carries allowed nothing inFilter (rightSide compile operand operator) (rightSide compile' operand operator) := by
  rw [rightSide.eq_def, rightSide.eq_def]
  split
  · exact carries_refl _
  · exact carries_refl _
  · exact carries_refl _
  · refine .step _ fun c => ?_
    split
    · split
      · exact carries_refl _
      split
      · exact carries_refl _
      split
      · exact carries_referenceFilter hextends operand _
      · exact carries_refl _
    · exact carries_refl _

theorem carries_predicate (hextends : Extends allowed compile compile') :
    Carries allowed nothing inFilter (predicate compile) (predicate compile') := by
  rw [predicate, predicate]
  refine .step _ fun operand => .step _ fun _ => .step _ fun c => ?_
  split
  · exact carries_refl _
  · exact .step _ fun operator => .step _ fun _ => carries_rightSide hextends operand operator

theorem carries_filters (hextends : Extends allowed compile compile') (fuel : Nat) :
    Carries allowed nothing inFilter (filter compile fuel) (filter compile' fuel) ∧
      Carries allowed nothing inFilter (filterTerm compile fuel) (filterTerm compile' fuel) ∧
      ∀ left, Carries allowed (inFilter left) inFilter (filterChain compile fuel left)
        (filterChain compile' fuel left) := by
  induction fuel with
  | zero => exact ⟨carries_refl _, carries_refl _, fun left _ _ _ => nofun⟩
  | succ fuel ih =>
      obtain ⟨hfilter, hterm, hchain⟩ := ih
      refine ⟨?_, ?_, fun left => ?_⟩
      · rw [filter, filter]
        exact hterm.bind hchain
      · rw [filterTerm, filterTerm]
        refine .step _ fun _ => .step _ fun found => ?_
        split
        · exact hfilter.bind fun inner => .step _ fun _ => .step _ fun _ => carries_pure fun _ => id
        · exact carries_predicate hextends
      · rw [filterChain, filterChain]
        refine .step _ fun _ => .step _ fun connective => ?_
        split
        · next connective =>
            refine (hterm.keep (inFilter left)).bind fun right => (hchain _).imp fun inner hinner => ?_
            exact hinner.elim (.left connective right) (.right connective left)
        · exact carries_pure fun _ => id

theorem carries_filterSegment (hextends : Extends allowed compile compile') :
    Carries allowed nothing inSegment (filterSegment compile) (filterSegment compile') := by
  rw [filterSegment, filterSegment]
  exact .step _ fun start => (carries_filters hextends _).1.bind fun condition => carries_pure fun _ => id

theorem carries_bracketContent (hextends : Extends allowed compile compile') :
    Carries allowed nothing inSegment (bracketContent compile) (bracketContent compile') := by
  rw [bracketContent, bracketContent]
  refine .step _ fun c => ?_
  split
  · exact .step _ fun _ => carries_filterSegment hextends
  · exact carries_refl _

theorem carries_bracket (hextends : Extends allowed compile compile') :
    Carries allowed nothing inSegment (bracket compile) (bracket compile') := by
  rw [bracket, bracket]
  refine .step _ fun _ => .step _ fun _ => (carries_bracketContent hextends).bind fun segment => ?_
  exact .step _ fun _ => .step _ fun _ => carries_pure fun _ => id

theorem carries_segment (hextends : Extends allowed compile compile') (first : Bool) :
    Carries allowed nothing inOption (segment compile first) (segment compile' first) := by
  rw [segment, segment]
  refine .step _ fun start => .step _ fun c => ?_
  split
  · exact carries_refl _
  split
  · exact carries_refl _
  split
  · exact (carries_bracket hextends).bind fun found => carries_pure fun inner hinner => ⟨found, rfl, hinner⟩
  split
  · refine .step _ fun _ => (carries_filterSegment hextends).bind fun found => ?_
    exact carries_pure fun inner hinner => ⟨found, rfl, hinner⟩
  · exact carries_refl _

theorem carries_segments (hextends : Extends allowed compile compile') (fuel : Nat) (first : Bool) :
    Carries allowed nothing inSegments (segments compile fuel first) (segments compile' fuel first) := by
  induction fuel generalizing first with
  | zero => exact carries_refl _
  | succ fuel ih =>
      rw [segments, segments]
      refine .step _ fun _ => .step _ fun ended => ?_
      split
      · exact carries_refl _
      · refine (carries_segment hextends first).bind fun found => ?_
        cases found with
        | none =>
            refine (ih first).imp ?_
            rintro inner ⟨_, ⟨⟩, _⟩
        | some found =>
            refine ((ih false).keep (inOption (some found))).bind fun others => carries_pure fun inner hinner => ?_
            rcases hinner with ⟨segment, ⟨⟩, hmentions⟩ | ⟨segment, hmem, hmentions⟩
            · exact ⟨found, List.mem_cons_self, hmentions⟩
            · exact ⟨segment, List.mem_cons_of_mem _ hmem, hmentions⟩

theorem carries_wholePath (hextends : Extends allowed compile compile') :
    Carries allowed nothing inSegments (wholePath compile) (wholePath compile') := by
  rw [wholePath, wholePath]
  exact .step _ fun _ => .step _ fun _ => .step _ fun start => carries_segments hextends _ true

end Readers

end Scan

namespace Path

variable {dropNulls : Bool} {text : String} {path inner : Path}

theorem compileWith_of_extends {allowed : Path → Prop} {fuel fuel' : Nat}
    (hextends : Scan.Extends allowed (compileWith dropNulls fuel) (compileWith dropNulls fuel'))
    (hcompile : compileWith dropNulls (fuel + 1) text = .ok path)
    (hallowed : ∀ inner, path.Mentions inner → allowed inner) :
    compileWith dropNulls (fuel' + 1) text = .ok path := by
  rw [compileWith] at hcompile ⊢
  split at hcompile
  · cases hcompile
  next hblank =>
  rw [if_neg hblank]
  split at hcompile
  · exact hcompile
  · split at hcompile
    · next segments parser hrun =>
        cases hcompile
        obtain ⟨-, hcarries⟩ := Scan.carries_wholePath hextends _ _ _ hrun
        have hrun' : Scan.wholePath (compileWith dropNulls fuel') (Parser.ofString text) = .ok segments parser :=
          hcarries hallowed
        rw [hrun']
    · cases hcompile

theorem isInner_of_mentions {fuel : Nat} (hfuel : text.length < fuel)
    (hcompile : compileWith dropNulls fuel text = .ok path) (hmentions : path.Mentions inner) :
    IsInner dropNulls (fuel - 1) text inner := by
  have hends : Ends dropNulls (fuel - 1) text (compileWith dropNulls fuel text) := ends_compileWith hfuel
  rw [hcompile] at hends
  obtain ⟨segment, hmem, hmentions⟩ := hmentions
  exact (hends.1 segment hmem).2 inner hmentions

/-- As soon as there are more levels than characters, it makes no difference how many there are. -/
theorem compileWith_of_lt {fuel fuel' : Nat} (hfuel : text.length < fuel) (hfuel' : text.length < fuel')
    (hcompile : compileWith dropNulls fuel text = .ok path) : compileWith dropNulls fuel' text = .ok path := by
  induction fuel generalizing fuel' text path with
  | zero => exact absurd hfuel (Nat.not_lt_zero _)
  | succ fuel ih =>
      obtain ⟨fuel', rfl⟩ := exists_eq_succ_of_lt hfuel'
      have hextends : Scan.Extends (IsInner dropNulls fuel text) (compileWith dropNulls fuel)
          (compileWith dropNulls fuel') := by
        rintro inner found hfound ⟨hshorter, -⟩
        rw [text_of_compileWith hfound] at hshorter
        exact ih (by omega) (by omega) hfound
      exact compileWith_of_extends hextends hcompile fun inner => isInner_of_mentions hfuel hcompile

theorem compile_of_mentions (hcompile : compile text dropNulls = .ok path) (hmentions : path.Mentions inner) :
    compile inner.text dropNulls = .ok inner := by
  obtain ⟨hshorter, hinner⟩ := isInner_of_mentions (Nat.lt_succ_self _) hcompile hmentions
  exact compileWith_of_lt hshorter (Nat.lt_succ_self _) hinner

theorem compile_of_reaches (hreaches : path.Reaches inner) (hcompile : compile path.text dropNulls = .ok path) :
    compile inner.text dropNulls = .ok inner := by
  induction hreaches with
  | self path => exact hcompile
  | mention hmentions _ ih => exact ih (compile_of_mentions hcompile hmentions)

theorem refers_eq_any (hcompile : compile text dropNulls = .ok path) :
    path.refers = path.segments.any Segment.refers := by
  have hends := ends_compile text dropNulls
  rw [hcompile] at hends
  exact hends.2

theorem notesReferences_of_compile (hcompile : compile text dropNulls = .ok path) : path.NotesReferences := fun hany =>
  (refers_eq_any hcompile).trans hany

theorem refers_iff_of_compile (hcompile : compile text dropNulls = .ok path) :
    path.refers = true ↔ ∃ inner, path.Mentions inner := by
  rw [refers_eq_any hcompile, path.any_refers_iff]

theorem wellFormed_of_compile (hcompile : compile text dropNulls = .ok path) : path.WellFormed dropNulls where
  compiled := by rwa [text_of_compileWith hcompile]
  dropNulls_eq := by
    obtain ⟨segments, refers, rfl, -⟩ := exists_of_compileWith hcompile
    rfl
  refers_iff := refers_iff_of_compile hcompile
  segments := by
    have hends := ends_compile text dropNulls
    rw [hcompile] at hends
    exact fun segment hmem => (hends.1 segment hmem).1

theorem compile_ne_against (text : String) (dropNulls : Bool) (test : String) :
    compile text dropNulls ≠ .error (.unsupported (.against test "a string")) := by
  intro herror
  have hends := ends_compile text dropNulls
  rw [herror] at hends
  exact hends rfl

/-- **Compiled paths are well formed.** A path that compiling gives is well formed, and so are the paths in its filters
and the paths in those, so that no positions are ever counted in steps of zero. No operator in front of a string ever
turns out not to take one, so that strings are compared by one of the six comparisons. Evaluating the path fails only by
refusing a value, and reading it from a text fails besides only where the text is at fault. -/
theorem compile_wellFormed (text : String) (dropNulls : Bool) :
    (∀ test, compile text dropNulls ≠ .error (.unsupported (.against test "a string"))) ∧
      ∀ path, compile text dropNulls = .ok path →
        (∀ inner, path.Reaches inner → inner.WellFormed dropNulls ∧
          ∀ start last step, .slice start last step ∈ inner.segments → step ≠ 0) ∧
        (∀ root fault, path.eval root = .error fault → fault.IsRefusal) ∧
        ∀ json fault, path.extractFrom json = .error fault → fault.StopsReading := by
  refine ⟨compile_ne_against text dropNulls, fun path hcompile => ⟨fun inner hreaches => ?_, ?_, ?_⟩⟩
  · rw [← text_of_compileWith hcompile] at hcompile
    have hinner := wellFormed_of_compile (compile_of_reaches hreaches hcompile)
    exact ⟨hinner, fun start last step hmem => Int.ne_of_gt (hinner.segments _ hmem).1⟩
  · intro root fault herror
    have hrefuses := path.refuses_eval root
    rwa [herror] at hrefuses
  · intro json fault herror
    rw [extractFrom] at herror
    split at herror
    · cases herror
    · next hrun =>
        cases herror
        exact path.stops_extract _ _ _ hrun

/-- A path in one of two filters that are joined. -/
theorem compile_wellFormed_group :
    ∃ path inner, compile "$.a[?(@.b == $.c[0:3] || @.d like '%x')]" true = .ok path ∧ path.Mentions inner ∧
      path.WellFormed true ∧ inner.WellFormed true := by
  have hrefers : (compile "$.a[?(@.b == $.c[0:3] || @.d like '%x')]" true).toOption.map refers = some true := by
    decide +kernel
  obtain ⟨path, hpath, hrefers⟩ := Option.map_eq_some_iff.mp hrefers
  generalize hcompile : compile "$.a[?(@.b == $.c[0:3] || @.d like '%x')]" true = compiled at hpath
  cases compiled with
  | error fault => cases hpath
  | ok found =>
      cases hpath
      obtain ⟨hwell, -, -⟩ := (compile_wellFormed _ true).2 path hcompile
      obtain ⟨hpath, -⟩ := hwell path (.self path)
      obtain ⟨inner, hmentions⟩ := hpath.refers_iff.mp hrefers
      have hinner := hwell inner (.mention hmentions (.self inner))
      exact ⟨path, inner, rfl, hmentions, hpath, hinner.1⟩

end Path

end TreeQuery
