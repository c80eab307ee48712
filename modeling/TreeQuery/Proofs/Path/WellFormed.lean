import TreeQuery.Path.Parser
import TreeQuery.Proofs.Running

/-!
# Well-formed paths

What evaluating, editing and streaming rely on in a path: what its segments and filters hold, which paths its filters
lead to, and that every one of those is itself what its text compiles to.
-/

namespace TreeQuery

/-! ### Hashes -/

/-- FNV-1a with 64 bits, in the arithmetic of natural numbers. -/
def fnv1a (bytes : List UInt8) : Nat :=
  bytes.foldl (fun hash byte => (hash ^^^ byte.toNat) * 1099511628211 % twoTo 64) 14695981039346656037

/-- The hash that is kept with the name is the FNV-1a hash of its bytes. -/
def HashedName.IsHashed (name : HashedName) : Prop := name.hash.toNat = fnv1a name.text.toUTF8.data.toList

theorem toNat_hashName (text : String) : (hashName text).toNat = fnv1a text.toUTF8.data.toList := by
  have hfold (bytes : List UInt8) (hash : UInt64) :
      (bytes.foldl (fun hash byte => (hash ^^^ byte.toUInt64) * 0x100000001b3) hash).toNat =
        bytes.foldl (fun hash byte => (hash ^^^ byte.toNat) * 1099511628211 % twoTo 64) hash.toNat := by
    induction bytes generalizing hash with
    | nil => rfl
    | cons byte bytes ih =>
        rw [List.foldl_cons, List.foldl_cons, ih]
        simp [twoTo]
  rw [hashName, ← Array.foldl_toList, hfold]
  rfl

theorem HashedName.isHashed_ofText (text : String) : (ofText text).IsHashed := toNat_hashName text

theorem HashedName.IsHashed.eq_ofText {name : HashedName} (hname : name.IsHashed) : name = .ofText name.text := by
  have hhash : name.hash = hashName name.text := UInt64.toNat_inj.mp (hname.trans (toNat_hashName name.text).symm)
  rw [ofText, ← hhash]

/-! ### Patterns -/

namespace LikePattern

/-- The fragments, in the order in which a text has them. -/
def parts (pattern : LikePattern) : List String :=
  pattern.startsWith.toList ++ pattern.contains ++ pattern.endsWith.toList

structure WellFormed (pattern : LikePattern) : Prop where
  nonEmpty : ∀ part ∈ pattern.parts, part ≠ ""
  minLength : pattern.minLength = byteLength pattern.parts

theorem ne_empty_of_nonEmpty? {fragment part : String} (hpart : nonEmpty? fragment = some part) : part ≠ "" := by
  rw [nonEmpty?] at hpart
  split at hpart
  · cases hpart
  · next hempty =>
      cases hpart
      exact fun heq => hempty (String.isEmpty_iff.mpr heq)

theorem byteLength_nonEmpty? (fragment : String) : byteLength (nonEmpty? fragment).toList = fragment.utf8ByteSize := by
  rw [nonEmpty?]
  split
  · next hempty =>
      rw [String.isEmpty_iff.mp hempty]
      rfl
  · exact Nat.add_zero _

theorem byteLength_append (fragments others : List String) :
    byteLength (fragments ++ others) = byteLength fragments + byteLength others := by
  induction fragments with
  | nil => exact (Nat.zero_add _).symm
  | cons fragment fragments ih =>
      calc
        fragment.utf8ByteSize + byteLength (fragments ++ others) =
            fragment.utf8ByteSize + (byteLength fragments + byteLength others) := by rw [ih]
        _ = fragment.utf8ByteSize + byteLength fragments + byteLength others := (Nat.add_assoc _ _ _).symm

theorem wellFormed_of_compile? {source : String} {pattern : LikePattern} (hcompile : compile? source = some pattern) :
    pattern.WellFormed := by
  rw [compile?] at hcompile
  split at hcompile
  · next first second rest _ =>
      cases hcompile
      constructor
      · intro part hpart
        simp only [parts, List.mem_append, Option.mem_toList, List.mem_filter] at hpart
        rcases hpart with (hfirst | ⟨-, hmiddle⟩) | hlast
        · exact ne_empty_of_nonEmpty? hfirst
        · rintro rfl
          cases hmiddle
        · exact ne_empty_of_nonEmpty? hlast
      · have hcons (fragment : String) (others : List String) :
            byteLength (fragment :: others) = fragment.utf8ByteSize + byteLength others := rfl
        simp only [parts, byteLength_append, byteLength_nonEmpty?, hcons]
        omega
  · cases hcompile

end LikePattern

/-! ### Filters and segments -/

def Operand.WellFormed : Operand → Prop
  | property name => name.IsHashed
  | size | kind => True

/-- The tests that a filter can make with a value. -/
def Comparison.all : List Comparison := [eq, ne, gt, ge, lt, le]

theorem Comparison.mem_all (test : Comparison) : test ∈ all := by
  cases test <;> decide

/-- What the parts of a filter satisfy. A path that it refers to stands for itself. -/
def Filter.WellFormed : Filter → Prop
  | present operand | absent operand => operand.WellFormed
  | bool operand _ _ | rlike operand _ _ | regex operand _ => operand.WellFormed
  | integer operand test _ | decimal operand test _ | string operand test _ | reference operand test _ =>
    operand.WellFormed ∧ test ∈ Comparison.all
  | like operand pattern _ => operand.WellFormed ∧ pattern.WellFormed
  | integers operand values _ => operand.WellFormed ∧ values.length ≠ 1
  | strings operand values _ => operand.WellFormed ∧ 2 ≤ values.length
  | nullableIntegers operand values _ => operand.WellFormed ∧ 2 ≤ values.length ∧ none ∈ values
  | between operand low high _ => operand.WellFormed ∧ low.toTree.isNumber = true ∧ high.toTree.isNumber = true
  | group _ left right => left.WellFormed ∧ right.WellFormed

def Segment.WellFormed : Segment → Prop
  | property name _ => name.IsHashed
  | properties names => 2 ≤ names.length
  | indices positions => 1 ≤ positions.length
  | slice start last step => 0 < step ∧ ¬(0 ≤ last ∧ last < start)
  | filter condition => condition.WellFormed
  | wildcard .. | index _ | function _ => True

/-! ### Paths in filters -/

/-- The filter compares with what `inner` selects, on its own or in a group. -/
inductive Filter.Mentions (inner : Path) : Filter → Prop
  | reference (operand : Operand) (test : Comparison) : Mentions inner (.reference operand test inner)
  | left (connective : Connective) {left : Filter} (right : Filter) (hleft : Mentions inner left) :
    Mentions inner (.group connective left right)
  | right (connective : Connective) (left : Filter) {right : Filter} (hright : Mentions inner right) :
    Mentions inner (.group connective left right)

def Segment.Mentions (inner : Path) : Segment → Prop
  | filter condition => condition.Mentions inner
  | _ => False

def Path.Mentions (path inner : Path) : Prop := ∃ segment ∈ path.segments, segment.Mentions inner

def Filter.refers : Filter → Bool
  | reference .. => true
  | group _ left right => left.refers || right.refers
  | _ => false

def Segment.refers : Segment → Bool
  | filter condition => condition.refers
  | _ => false

/-- A path whose filters refer to other paths has that noted. -/
def Path.NotesReferences (path : Path) : Prop := path.segments.any Segment.refers = true → path.refers = true

/-- The path, a path that one of its filters mentions, or a path in one of those. -/
inductive Path.Reaches : Path → Path → Prop
  | self (path : Path) : Reaches path path
  | mention {path mentioned inner : Path} (hmentions : path.Mentions mentioned) (hreaches : Reaches mentioned inner) :
    Reaches path inner

/-- What holds of every path that compiling gives. -/
structure Path.WellFormed (dropNulls : Bool) (path : Path) : Prop where
  compiled : compile path.text dropNulls = .ok path
  dropNulls_eq : path.dropNulls = dropNulls
  refers_iff : path.refers = true ↔ ∃ inner, path.Mentions inner
  segments : ∀ segment ∈ path.segments, segment.WellFormed

theorem Filter.refers_iff (condition : Filter) : condition.refers = true ↔ ∃ inner, condition.Mentions inner := by
  induction condition using Filter.refers.induct with
  | case1 operand test path => exact ⟨fun _ => ⟨path, .reference operand test⟩, fun _ => rfl⟩
  | case2 connective left right ihleft ihright =>
      rw [refers, Bool.or_eq_true, ihleft, ihright]
      constructor
      · rintro (⟨inner, hmentions⟩ | ⟨inner, hmentions⟩)
        · exact ⟨inner, .left connective right hmentions⟩
        · exact ⟨inner, .right connective left hmentions⟩
      · rintro ⟨inner, hmentions⟩
        cases hmentions with
        | left _ _ hleft => exact .inl ⟨inner, hleft⟩
        | right _ _ hright => exact .inr ⟨inner, hright⟩
  | case3 condition hreference hgroup =>
      rw [refers]
      · refine ⟨nofun, ?_⟩
        rintro ⟨inner, hmentions⟩
        cases hmentions with
        | reference operand test => exact (hreference _ _ _ rfl).elim
        | left connective right _ => exact (hgroup _ _ _ rfl).elim
        | right connective left _ => exact (hgroup _ _ _ rfl).elim
      all_goals assumption

theorem Segment.refers_iff (segment : Segment) : segment.refers = true ↔ ∃ inner, segment.Mentions inner := by
  cases segment with
  | filter condition => exact condition.refers_iff
  | _ => exact ⟨nofun, fun ⟨_, hmentions⟩ => hmentions.elim⟩

theorem Path.any_refers_iff (path : Path) :
    path.segments.any Segment.refers = true ↔ ∃ inner, path.Mentions inner := by
  simp only [List.any_eq_true, Segment.refers_iff]
  exact ⟨fun ⟨segment, hmem, inner, hmentions⟩ => ⟨inner, segment, hmem, hmentions⟩,
    fun ⟨inner, segment, hmem, hmentions⟩ => ⟨segment, hmem, inner, hmentions⟩⟩

theorem Path.exists_of_compileWith {dropNulls : Bool} {fuel : Nat} {text : String} {path : Path}
    (hcompile : compileWith dropNulls fuel text = .ok path) :
    ∃ segments refers, path = .mk text segments refers dropNulls ∧
      ((∃ segment, Segment.ofSingle? text.toList = some segment ∧ segments = [segment] ∧ refers = false) ∨
        ∃ scanner, (Scan.wholePath (compileWith dropNulls (fuel - 1))).run (Parser.ofString text) =
          .ok segments ⟨scanner, refers⟩) := by
  cases fuel with
  | zero => cases hcompile
  | succ fuel =>
      rw [compileWith] at hcompile
      split at hcompile
      · cases hcompile
      · split at hcompile
        · next segment hsingle =>
            cases hcompile
            exact ⟨[segment], false, rfl, .inl ⟨segment, hsingle, rfl, rfl⟩⟩
        · split at hcompile
          · next segments parser hrun =>
              cases hcompile
              exact ⟨segments, parser.refers, rfl, .inr ⟨parser.scanner, hrun⟩⟩
          · cases hcompile

theorem Path.text_of_compileWith {dropNulls : Bool} {fuel : Nat} {text : String} {path : Path}
    (hcompile : compileWith dropNulls fuel text = .ok path) : path.text = text := by
  obtain ⟨segments, refers, rfl, -⟩ := exists_of_compileWith hcompile
  rfl

/-! ### What the parts are built from -/

/-- A well-formed filter that mentions good paths only. -/
def Filter.Fits (good : Path → Prop) (condition : Filter) : Prop :=
  condition.WellFormed ∧ ∀ inner, condition.Mentions inner → good inner

def Segment.Fits (good : Path → Prop) (segment : Segment) : Prop :=
  segment.WellFormed ∧ ∀ inner, segment.Mentions inner → good inner

theorem Filter.Fits.of_leaf {good : Path → Prop} {condition : Filter} (hrefers : condition.refers = false)
    (hcondition : condition.WellFormed) : condition.Fits good := by
  refine ⟨hcondition, fun inner hmentions => ?_⟩
  rw [condition.refers_iff.mpr ⟨inner, hmentions⟩] at hrefers
  cases hrefers

theorem Filter.Fits.group {good : Path → Prop} {left right : Filter} (hleft : left.Fits good)
    (hright : right.Fits good) (connective : Connective) : (Filter.group connective left right).Fits good := by
  refine ⟨⟨hleft.1, hright.1⟩, fun inner hmentions => ?_⟩
  cases hmentions with
  | left _ _ hmentions => exact hleft.2 inner hmentions
  | right _ _ hmentions => exact hright.2 inner hmentions

theorem Segment.Fits.of_plain {good : Path → Prop} {segment : Segment} (hrefers : segment.refers = false)
    (hsegment : segment.WellFormed) : segment.Fits good := by
  refine ⟨hsegment, fun inner hmentions => ?_⟩
  rw [segment.refers_iff.mpr ⟨inner, hmentions⟩] at hrefers
  cases hrefers

/-- A filter that fits whatever paths are good mentions none. -/
theorem Filter.Fits.refers_eq_false {condition : Filter} (hcondition : condition.Fits fun _ => False) :
    condition.refers = false := by
  rw [← Bool.not_eq_true, condition.refers_iff]
  exact fun ⟨inner, hmentions⟩ => hcondition.2 inner hmentions

theorem Filter.Fits.mono {good good' : Path → Prop} {condition : Filter} (hcondition : condition.Fits good)
    (hgood : ∀ inner, good inner → good' inner) : condition.Fits good' :=
  ⟨hcondition.1, fun inner hmentions => hgood inner (hcondition.2 inner hmentions)⟩

theorem Segment.Fits.refers_eq_false {segment : Segment} (hsegment : segment.Fits fun _ => False) :
    segment.refers = false := by
  rw [← Bool.not_eq_true, segment.refers_iff]
  exact fun ⟨inner, hmentions⟩ => hsegment.2 inner hmentions

theorem Segment.Fits.mono {good good' : Path → Prop} {segment : Segment} (hsegment : segment.Fits good)
    (hgood : ∀ inner, good inner → good' inner) : segment.Fits good' :=
  ⟨hsegment.1, fun inner hmentions => hgood inner (hsegment.2 inner hmentions)⟩

variable {operand : Operand} {negated : Bool} {items : List Listed} {filter : Filter}

theorem Listed.fits_toFilter (good : Path → Prop) (hoperand : operand.WellFormed) (item : Listed) :
    (item.toFilter operand negated).Fits good := by
  have htest : (if negated then Comparison.ne else .eq) ∈ Comparison.all := Comparison.mem_all _
  cases item with
  | null => cases negated <;> exact .of_leaf rfl hoperand
  | bool value => exact .of_leaf rfl hoperand
  | string value => exact .of_leaf rfl (And.intro hoperand htest)
  | number value => cases value <;> exact .of_leaf rfl (And.intro hoperand htest)

theorem Listed.integer?_eq (item : Listed) : item.integer? = item.nullableInteger?.join := by
  cases item with
  | number value => cases value <;> rfl
  | _ => rfl

theorem Filter.fits_of_ofList? (good : Path → Prop) (hoperand : operand.WellFormed)
    (hfilter : ofList? operand negated items = some filter) : filter.Fits good := by
  rw [ofList?.eq_def] at hfilter
  split at hfilter
  · cases hfilter
    exact Listed.fits_toFilter good hoperand _
  next hlone =>
  have hlength : items.length ≠ 1 := fun hlength => by
    obtain ⟨item, rfl⟩ := List.length_eq_one_iff.mp hlength
    exact hlone item rfl
  have htwo (hintegers : items.mapM Listed.integer? = none) : 2 ≤ items.length := by
    have hmem := mapM_eq_none_iff.mp hintegers
    have hpos := List.length_pos_of_mem hmem
    rw [List.length_map] at hpos
    omega
  split at hfilter
  · next hvalues =>
      cases hfilter
      rw [← length_eq_of_mapM hvalues] at hlength
      exact .of_leaf rfl (And.intro hoperand hlength)
  · next hintegers hvalues =>
      cases hfilter
      rw [← length_eq_of_mapM hvalues] at htwo
      exact .of_leaf rfl (And.intro hoperand (htwo hintegers))
  · next values hintegers _ hvalues =>
      cases hfilter
      -- The values are what the integers are read as, and one of those is none.
      have hread : items.map Listed.integer? = values := by
        have hmap := congrArg (List.map Option.join) (mapM_eq_some_iff.mp hvalues)
        simpa [Function.comp_def, ← Listed.integer?_eq] using hmap
      have hnull : none ∈ values := hread ▸ mapM_eq_none_iff.mp hintegers
      rw [← length_eq_of_mapM hvalues] at htwo
      exact .of_leaf rfl (And.intro hoperand (And.intro (htwo hintegers) hnull))
  · cases hfilter

theorem Segment.fits_of_ofSingle? (good : Path → Prop) {chars : List Char} {segment : Segment}
    (hsegment : ofSingle? chars = some segment) : segment.Fits good := by
  rw [ofSingle?.eq_def] at hsegment
  split at hsegment
  · split at hsegment
    · cases hsegment
      exact .of_plain rfl trivial
    split at hsegment
    · cases hsegment
      exact .of_plain rfl trivial
    split at hsegment
    · cases hsegment
      exact .of_plain rfl (HashedName.isHashed_ofText _)
    · cases hsegment
  · cases hsegment

end TreeQuery
