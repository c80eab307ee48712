import TreeQuery.Path.Basic
import TreeQuery.Text.Quoted

/-!
Segments and filters written out with all their parts, as messages about unsuitable segments show them.
-/

namespace TreeQuery

namespace Describe

/-- A name with labelled parts in braces. -/
def fields (name : String) (parts : List (String × String)) : String :=
  name ++ " \x7b " ++ ", ".intercalate (parts.map fun (label, text) => label ++ ": " ++ text) ++ " \x7d"

/-- A name with one part in parentheses. -/
def wrapped (name text : String) : String := name ++ "(" ++ text ++ ")"

def list (texts : List String) : String := "[" ++ ", ".intercalate texts ++ "]"

def flag (value : Bool) : String := if value then "true" else "false"

def optional (text : Option String) : String :=
  match text with
  | some text => wrapped "Some" text
  | none => "None"

end Describe

open Describe

def Comparison.describe : Comparison → String
  | eq => "Eq"
  | ne => "Ne"
  | gt => "Gt"
  | ge => "Ge"
  | lt => "Lt"
  | le => "Le"

def Operand.describe : Operand → String
  | property name => fields "Property" [("name", Text.quoted name.text), ("hash", toString name.hash.toNat)]
  | size => "Size"
  | kind => "Type"

def Connective.describe : Connective → String
  | and => "And"
  | or => "Or"

def Literal.describe : Literal → String
  | integer value => wrapped "Integer" (toString value)
  | decimal value => wrapped "Decimal" value.toText

def PathFunction.describe : PathFunction → String
  | size => "Size"
  | kind => "Type"
  | floor => "Floor"
  | max => "Max"
  | min => "Min"
  | keySet => "KeySet"

def LikePattern.describe (pattern : LikePattern) : String :=
  fields "LikePattern" [
    ("starts_with", optional (pattern.startsWith.map Text.quoted)),
    ("ends_with", optional (pattern.endsWith.map Text.quoted)),
    ("contains", list (pattern.contains.map Text.quoted)),
    ("min_len", toString pattern.minLength)]

mutual

def Segment.describe : Segment → String
  | .property name deep =>
    fields "Property"
      [("name", Text.quoted name.text), ("hash", toString name.hash.toNat), ("deep", flag deep)]
  | .properties names => wrapped "MultiProperty" (list (names.map Text.quoted))
  | .wildcard deep objectsOnly => fields "Wildcard" [("deep", flag deep), ("object_only", flag objectsOnly)]
  | .index position => wrapped "ArrayIndex" (toString position)
  | .indices positions => wrapped "MultiIndex" (list (positions.map toString))
  | .slice start last step =>
    fields "Range" [("start", toString start), ("end", toString last), ("step", toString step)]
  | .filter condition => wrapped "Filter" condition.describe
  | .function name => name.describe

def Filter.describe : Filter → String
  | .present operand => wrapped "NotNull" operand.describe
  | .absent operand => wrapped "Null" operand.describe
  | .integer operand test value =>
    fields "Int" [("operand", operand.describe), ("op", test.describe), ("value", toString value)]
  | .decimal operand test value =>
    fields "Decimal" [("operand", operand.describe), ("op", test.describe), ("value", value.toText)]
  | .string operand test value =>
    fields "Str" [("operand", operand.describe), ("op", test.describe), ("value", Text.quoted value)]
  | .bool operand value equal =>
    fields "Bool" [("operand", operand.describe), ("value", flag value), ("equal", flag equal)]
  | .like operand pattern negated =>
    fields "Like" [("operand", operand.describe), ("pattern", pattern.describe), ("not", flag negated)]
  | .rlike operand pattern negated =>
    fields "Rlike" [("operand", operand.describe), ("pattern", pattern.shown), ("not", flag negated)]
  | .regex operand pattern =>
    fields "RegMatch" [("operand", operand.describe), ("pattern", pattern.shown)]
  | .integers operand values negated =>
    fields "IntIn" [("operand", operand.describe), ("values", list (values.map toString)), ("not", flag negated)]
  | .strings operand values negated =>
    fields "StrIn" [("operand", operand.describe), ("values", list (values.map Text.quoted)), ("not", flag negated)]
  | .nullableIntegers operand values negated =>
    fields "NullableIntIn"
      [("operand", operand.describe), ("values", list (values.map fun v => optional (v.map toString))),
        ("not", flag negated)]
  | .between operand low high negated =>
    fields "Between"
      [("operand", operand.describe), ("low", low.describe), ("high", high.describe), ("not", flag negated)]
  | .reference operand test path =>
    fields "Ref" [("operand", operand.describe), ("op", test.describe), ("path", path.describe)]
  | .group connective left right =>
    fields "Group" [("left", left.describe), ("right", right.describe), ("logic", connective.describe)]

def Path.describe : Path → String
  | .mk text segments refers dropNulls =>
    fields "CompiledPath"
      [("text", Text.quoted text), ("segments", list (Path.describeAll segments)),
        ("has_ref_segment", flag refers), ("ignore_null_value", flag dropNulls)]

def Path.describeAll : List Segment → List String
  | [] => []
  | segment :: segments => segment.describe :: Path.describeAll segments

end

end TreeQuery
