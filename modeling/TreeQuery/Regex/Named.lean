import TreeQuery.Regex.Boundaries
import TreeQuery.Unicode.Age
import TreeQuery.Unicode.ScriptExtension

/-!
Classes of characters that a pattern names by a property, a category, a script, or a property and its value.
-/

namespace TreeQuery.Regex.Classes

open Unicode

/-- Names match without regard to case, spaces, hyphens, underscores, characters beyond ASCII, and a leading
`is`; only the name `isc` keeps it. -/
def normalizeName (name : List Char) : String :=
  let kept (text : List Char) : List Char :=
    (text.filter fun c => c.toNat < 0x80 && c != ' ' && c != '_' && c != '-').map Char.toLower
  match name with
  | i :: s :: rest =>
    if i.toLower == 'i' && s.toLower == 's' then
      if kept rest == ['c'] then "isc" else String.ofList (kept rest)
    else String.ofList (kept name)
  | _ => String.ofList (kept name)

def category? (name : String) : Option CharSet :=
  match name with
  | "any" => some CharSet.all
  | "ascii" => some ⟨[(0, 0x7F)]⟩
  | "assigned" => some (ofCategories ["Cn"]).complement
  | _ => (categoryNames.lookup name).map ofCategories

def script? (name : String) : Option CharSet :=
  (scriptNames.lookup name).map fun label => CharSet.ofRanges (labelled [label] scripts)

/-- The characters that are used with a script, whichever they are counted to. -/
def scriptUse? (name : String) : Option CharSet :=
  (scriptNames.lookup name).map fun label =>
    let ranges (uses : List ScriptUse) : CharSet := CharSet.ofRanges (uses.map fun s => (s.first, s.last))
    ((CharSet.ofRanges (labelled [label] scripts)).difference (ranges scriptUses)).union
      (ranges (scriptUses.filter fun s => s.names.contains label))

/-- The characters that a version of the standard knows: its own and those of the versions before it. -/
def age? (name : String) : Option CharSet :=
  let older := versionNames.takeWhile fun (number, word, _) => number != name && word != name
  (versionNames[older.length]?).map fun (_, _, letter) =>
    CharSet.ofRanges (labelled (letter :: older.map fun (_, _, letter) => letter) ages)

def named? (name : List Char) : Option CharSet :=
  let name := normalizeName name
  (property? name).orElse fun _ => (category? name).orElse fun _ => script? name

def valued? (property value : List Char) : Option CharSet :=
  let value := normalizeName value
  match normalizeName property with
  | "generalcategory" | "gc" => category? value
  | "script" | "sc" => script? value
  | "scriptextensions" | "scx" => scriptUse? value
  | "age" => age? value
  | "graphemeclusterbreak" | "gcb" => Grapheme.named? value
  | "wordbreak" | "wb" => Word.named? value
  | "sentencebreak" | "sb" => Sentence.named? value
  | _ => none

end TreeQuery.Regex.Classes
