import TreeQuery.Regex.Parser

/-!
Matching: an expression is laid out as a program of numbered instructions, and a text is run through all
paths of it at once, one character at a time.
-/

namespace TreeQuery.Regex

inductive Instruction
  | consume (set : CharSet) (next : Nat)
  | fork (first second : Nat)
  | check (look : Look) (next : Nat)
  | accept
deriving Inhabited

abbrev Program := Array Instruction

namespace Program

def add (program : Program) (instruction : Instruction) : Nat × Program :=
  (program.size, program.push instruction)

def copies (body : Nat → Program → Nat × Program) : Nat → Nat → Program → Nat × Program
  | 0, next, program => (next, program)
  | count + 1, next, program =>
    let (next, program) := body next program
    copies body count next program

/-- Lays out `count` copies of a body, each of which may be left out together with those after it. -/
def optionalCopies (body : Nat → Program → Nat × Program) (leave : Nat) : Nat → Nat → Program → Nat × Program
  | 0, next, program => (next, program)
  | count + 1, next, program =>
    let (entry, program) := body next program
    let (fork, program) := program.add (.fork entry leave)
    optionalCopies body leave count fork program

def loop (body : Nat → Program → Nat × Program) (next : Nat) (program : Program) : Nat × Program :=
  let (fork, program) := program.add .accept
  let (entry, program) := body fork program
  (fork, program.set! fork (.fork entry next))

mutual

/-- Lays out an expression that goes on at `next`, and gives the number where it starts. -/
def layOut : Expression → Nat → Program → Nat × Program
  | .empty, next, program => (next, program)
  | .chars set, next, program => program.add (.consume set next)
  | .look condition, next, program => program.add (.check condition next)
  | .concat parts, next, program => layOutAll parts next program
  | .alternate branches, next, program => layOutAny branches next program
  | .repeated body least (some most), next, program =>
    let (entry, program) := optionalCopies (layOut body) next (most - least) next program
    copies (layOut body) least entry program
  | .repeated body least none, next, program =>
    let (entry, program) := loop (layOut body) next program
    copies (layOut body) least entry program

def layOutAll : List Expression → Nat → Program → Nat × Program
  | [], next, program => (next, program)
  | part :: parts, next, program =>
    let (entry, program) := layOutAll parts next program
    layOut part entry program

def layOutAny : List Expression → Nat → Program → Nat × Program
  | [], next, program => (next, program)
  | [branch], next, program => layOut branch next program
  | branch :: branches, next, program =>
    let (others, program) := layOutAny branches next program
    let (entry, program) := layOut branch next program
    program.add (.fork entry others)

end

/-- The places reached so far in one step, and those among them that consume a character. -/
structure Reached where
  seen : Array Bool
  consuming : List (CharSet × Nat)
  accepted : Bool

/-- Follows the instructions on the stack that consume nothing; each place is entered once. -/
def follow (program : Program) (before after : Option Char) : Nat → List Nat → Reached → Reached
  | 0, _, reached => reached
  | _, [], reached => reached
  | fuel + 1, place :: stack, reached =>
    if reached.seen.getD place true then follow program before after fuel stack reached
    else
      let reached := { reached with seen := reached.seen.set! place true }
      match program.getD place .accept with
      | .consume set next =>
        follow program before after fuel stack { reached with consuming := (set, next) :: reached.consuming }
      | .fork first second => follow program before after fuel (first :: second :: stack) reached
      | .check look next =>
        follow program before after fuel (if look.holds before after then next :: stack else stack) reached
      | .accept => follow program before after fuel stack { reached with accepted := true }

def reach (program : Program) (places : List Nat) (before after : Option Char) : Reached :=
  follow program before after (2 * program.size + places.length + 1) places
    ⟨Array.replicate program.size false, [], false⟩

/-- Whether some part of the text matches, when matches may start at any place from here on. -/
def search (program : Program) (start : Nat) (places : List Nat) (before : Option Char) : List Char → Bool
  | [] => (program.reach (places ++ [start]) before none).accepted
  | c :: text =>
    let reached := program.reach (places ++ [start]) before (some c)
    reached.accepted ||
      search program start ((reached.consuming.filter fun entry => entry.1.contains c).map (·.2)) (some c) text

end Program

end TreeQuery.Regex

namespace TreeQuery

structure Pattern where
  source : String
  ignoreCase : Bool
  start : Nat
  program : Regex.Program
deriving Inhabited

namespace Pattern

/-- The text that is compiled: the source between the two ends of a text. -/
def anchored (source : String) (ignoreCase : Bool) : List Char :=
  (if ignoreCase then "(?i)".toList else []) ++ "^(?:".toList ++ source.toList ++ ")$".toList

def compile? (source : String) (ignoreCase : Bool) : Option Pattern := do
  let expression ← Regex.Expression.parse? (anchored source ignoreCase)
  let (start, program) := Regex.Program.layOut expression 0 #[.accept]
  return { source, ignoreCase, start, program }

def isMatch (pattern : Pattern) (text : String) : Bool :=
  pattern.program.search pattern.start [] none text.toList

def shown (pattern : Pattern) : String :=
  "/" ++ pattern.source ++ (if pattern.ignoreCase then "/i" else "/")

end Pattern

end TreeQuery
