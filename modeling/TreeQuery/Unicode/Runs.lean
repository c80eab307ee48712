import TreeQuery.Decimal.Text

/-!
Properties that partition the code points, written as a text of run lengths and labels: `32Cc1Zs` gives
the first 32 code points the label `Cc` and the next one `Zs`.
-/

namespace TreeQuery.Unicode

abbrev CodeRanges := List (Nat × Nat)

/-- Consecutive code points that share a label. -/
structure Run where
  first : Nat
  last : Nat
  label : String

/-- Reads lengths in decimal, each followed by a label of `width` letters. -/
def decodeAux (width : Nat) : Nat → Nat → List Char → List Run
  | 0, _, _ => []
  | fuel + 1, start, text =>
    let length := digitsValue (text.takeWhile Char.isDigit)
    let rest := text.dropWhile Char.isDigit
    if rest.isEmpty then []
    else ⟨start, start + length - 1, String.ofList (rest.take width)⟩ ::
      decodeAux width fuel (start + length) (rest.drop width)

def decodeRuns (width : Nat) (text : String) : List Run := decodeAux width text.length 0 text.toList

def labelAt (runs : List Run) (code : Nat) : String :=
  ((runs.find? fun run => run.first ≤ code && code ≤ run.last).map (·.label)).getD ""

def labelled (labels : List String) (runs : List Run) : CodeRanges :=
  (runs.filter fun run => labels.contains run.label).map fun run => (run.first, run.last)

/-- The members of a set whose runs are marked with a plus sign, and all others with a hyphen. -/
def members (lines : List String) : CodeRanges := labelled ["+"] (decodeRuns 1 (String.join lines))

end TreeQuery.Unicode
