import TreeQuery.Path.Hash
import TreeQuery.Path.Like
import TreeQuery.Regex.Program
import TreeQuery.Tree.Basic

/-!
Compiled paths: a list of segments that are applied from left to right, some of them filters that may
refer to further paths.
-/

namespace TreeQuery

inductive Comparison
  | eq
  | ne
  | gt
  | ge
  | lt
  | le
deriving DecidableEq, Repr, Inhabited

namespace Comparison

def accepts : Comparison → Ordering → Bool
  | eq, order => order == .eq
  | ne, order => order != .eq
  | gt, order => order == .gt
  | ge, order => order != .lt
  | lt, order => order == .lt
  | le, order => order != .gt

end Comparison

/-- A name with its hash, which readers of a text compare before the names themselves. -/
structure HashedName where
  text : String
  hash : UInt64
deriving DecidableEq, Repr, Inhabited

def HashedName.ofText (text : String) : HashedName := ⟨text, hashName text⟩

@[simp]
theorem HashedName.text_ofText (text : String) : (ofText text).text = text := rfl

@[simp]
theorem HashedName.hash_ofText (text : String) : (ofText text).hash = hashName text := rfl

instance : Coe String HashedName := ⟨HashedName.ofText⟩

instance : Coe HashedName String := ⟨HashedName.text⟩

inductive Operand
  | property (name : HashedName)
  | size
  | kind
deriving DecidableEq, Repr, Inhabited

inductive Connective
  | and
  | or
deriving DecidableEq, Repr, Inhabited

inductive Literal
  | integer (value : Int)
  | decimal (value : Decimal)
deriving DecidableEq, Repr, Inhabited

def Literal.toTree : Literal → Tree
  | integer value => .integer value
  | decimal value => .decimal value

inductive PathFunction
  | size
  | kind
  | floor
  | max
  | min
  | keySet
deriving DecidableEq, Repr, Inhabited

mutual

inductive Segment
  | property (name : HashedName) (deep : Bool)
  | properties (names : List String)
  | wildcard (deep : Bool) (objectsOnly : Bool)
  | index (position : Int)
  | indices (positions : List Int)
  /-- Positions from `start` to `last`, both included. -/
  | slice (start : Int) (last : Int) (step : Int)
  | filter (condition : Filter)
  | function (name : PathFunction)

inductive Filter
  | present (operand : Operand)
  | absent (operand : Operand)
  | integer (operand : Operand) (test : Comparison) (value : Int)
  | decimal (operand : Operand) (test : Comparison) (value : Decimal)
  | string (operand : Operand) (test : Comparison) (value : String)
  | bool (operand : Operand) (value : Bool) (equal : Bool)
  | like (operand : Operand) (pattern : LikePattern) (negated : Bool)
  | rlike (operand : Operand) (pattern : Pattern) (negated : Bool)
  | regex (operand : Operand) (pattern : Pattern)
  | integers (operand : Operand) (values : List Int) (negated : Bool)
  | strings (operand : Operand) (values : List String) (negated : Bool)
  | nullableIntegers (operand : Operand) (values : List (Option Int)) (negated : Bool)
  | between (operand : Operand) (low : Literal) (high : Literal) (negated : Bool)
  /-- Compares with what another path selects from the root. -/
  | reference (operand : Operand) (test : Comparison) (path : Path)
  | group (connective : Connective) (left : Filter) (right : Filter)

inductive Path
  | mk (text : String) (segments : List Segment) (refers : Bool) (dropNulls : Bool)

end

instance : Inhabited Path := ⟨.mk "" [] false true⟩

namespace Path

def text : Path → String
  | mk text _ _ _ => text

def segments : Path → List Segment
  | mk _ segments _ _ => segments

/-- Whether some filter of the path refers to another path, as the parser has noted it. -/
def refers : Path → Bool
  | mk _ _ refers _ => refers

/-- Whether nulls are dropped where a property maps over an array. -/
def dropNulls : Path → Bool
  | mk _ _ _ dropNulls => dropNulls

end Path

/-- The text determines the segments, so paths are the same when text and treatment of nulls are. -/
def Path.same (left right : Path) : Bool := left.text == right.text && left.dropNulls == right.dropNulls

end TreeQuery
