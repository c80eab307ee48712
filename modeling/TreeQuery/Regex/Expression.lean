import TreeQuery.Power
import TreeQuery.Regex.CharSet

/-!
Regular expressions as trees, without captures: what a text is matched against once flags and named
classes are resolved.
-/

namespace TreeQuery.Regex

inductive Look
  | textStart
  | textEnd
  | lineStart
  | lineEnd
  /-- Line ends where a carriage return may stand before the line feed, or for it. -/
  | crlfStart
  | crlfEnd
  | wordBoundary (word : CharSet)
  | notWordBoundary (word : CharSet)
  | wordStart (word : CharSet)
  | wordEnd (word : CharSet)
  | wordStartHalf (word : CharSet)
  | wordEndHalf (word : CharSet)
deriving Inhabited

def Look.holds (look : Look) (before after : Option Char) : Bool :=
  let inWord (word : CharSet) (c : Option Char) : Bool := (c.map word.contains).getD false
  match look with
  | textStart => before.isNone
  | textEnd => after.isNone
  | lineStart => before.isNone || before == some '\n'
  | lineEnd => after.isNone || after == some '\n'
  | crlfStart => before.isNone || before == some '\n' || (before == some '\r' && after != some '\n')
  | crlfEnd => after.isNone || after == some '\r' || (after == some '\n' && before != some '\r')
  | wordBoundary word => inWord word before != inWord word after
  | notWordBoundary word => inWord word before == inWord word after
  | wordStart word => !inWord word before && inWord word after
  | wordEnd word => inWord word before && !inWord word after
  | wordStartHalf word => !inWord word before
  | wordEndHalf word => !inWord word after

inductive Expression
  | empty
  | chars (set : CharSet)
  | look (condition : Look)
  | concat (parts : List Expression)
  | alternate (branches : List Expression)
  | repeated (body : Expression) (least : Nat) (most : Option Nat)
deriving Inhabited

namespace Expression

mutual

def consumesNothing : Expression → Bool
  | empty | look _ => true
  | chars _ => false
  | concat parts | alternate parts => allConsumeNothing parts
  | repeated body _ most => consumesNothing body || most == some 0

def allConsumeNothing : List Expression → Bool
  | [] => true
  | part :: parts => consumesNothing part && allConsumeNothing parts

end

/-- A body that consumes nothing is repeated once at most. -/
def mkRepeated (body : Expression) (least : Nat) (most : Option Nat) : Expression :=
  if body.consumesNothing then repeated body (min least 1) (some (min (most.getD 1) 1))
  else repeated body least most

/-- Bytes of storage for a set: one range of characters may need several steps. -/
def setWeight (set : CharSet) : Nat :=
  match set.ranges with
  | [(first, last)] => if first = last ∧ first < 0x80 then 32 else 96
  | ranges => 64 * ranges.length + 32

mutual

def weight : Expression → Nat
  | empty => 0
  | chars set => setWeight set
  | look _ => 32
  | concat parts => weights parts
  | alternate branches => weights branches + 32 * branches.length
  | repeated body least most => (weight body + 32) * (match most with | some n => n | none => least + 1)

def weights : List Expression → Nat
  | [] => 0
  | part :: parts => weight part + weights parts

end

def maxWeight : Nat := 10 * twoTo 20

end Expression

end TreeQuery.Regex
