import TreeQuery.Command.Options
import TreeQuery.Document
import TreeQuery.Stream.Extract

/-!
Running a command: from its options and the text of the document to what is printed.
-/

namespace TreeQuery

structure Output where
  code : Nat
  stdout : String
  stderr : String
deriving DecidableEq, Repr, Inhabited

namespace Output

def usage : String := "\n".intercalate [
  "Usage: tp <path> [--json TEXT | --file PATH] [operation] [options]",
  "",
  "Operations (default: evaluate the path):",
  "  --set VALUE      assign VALUE (JSON, or a bare string) and print the document",
  "  --remove         remove the selection and print the document",
  "  --add VALUE      append VALUE to the selected array (repeatable)",
  "  --patch OPS      apply JSON patch operations (path argument optional)",
  "  --size           print the size of the selection",
  "  --keys           print the keys of the selected object",
  "  --contains       print whether the path selects anything",
  "  --paths          print every path below the selection",
  "",
  "Options:",
  "  --json TEXT      read the document from TEXT instead of stdin",
  "  --file PATH      read the document from a file",
  "  --stream         evaluate against the JSON text without building the tree",
  "  --keep-nulls     keep nulls when a property maps over an array",
  "  --pretty         pretty-print the output",
  "",
  "Examples:",
  "  tp '$.store.book[?(@.price < 10)].title' --file store.json",
  "  echo '\x7b\"a\":\x7b\"b\":1\x7d\x7d' | tp '$.a.c' --set 2",
  "  tp '$..price' --json '\x7b\"x\":\x7b\"price\":3\x7d\x7d' --stream"]

def printed (text : String) : Output := ⟨0, text ++ "\n", ""⟩

def misused (message : String) : Output := ⟨1, "", "Error: " ++ message ++ "\n\n" ++ usage ++ "\n"⟩

def ofUsageFault : UsageFault → Output
  | .noArguments => ⟨1, "", usage ++ "\n"⟩
  | .help => printed usage
  | .missingValue option => misused (option ++ " requires an argument")
  | .unknownOption option => misused ("unknown option '" ++ option ++ "'")
  | .unexpectedArgument argument => misused ("unexpected argument '" ++ argument ++ "'")
  | .twoInputs => misused "--json and --file are mutually exclusive"
  | .missingPath => misused "missing path"
  | .streamedAction => misused "--stream only supports evaluation"
  | .unreadable reason => misused ("cannot read input: " ++ reason)

def ofFault (fault : Fault) : Output := ⟨2, "", "Error: " ++ fault.message ++ "\n"⟩

end Output

namespace Action

def edited (path : Path) (edit : Path → Edit Tree) (root : Tree) : Except Fault Tree :=
  let (document, changed) := Document.ofChange (edit path root Store.empty)
  changed.map fun _ => document.tree

def run (action : Action) (path : Path) (root : Tree) : Except Fault Tree :=
  match action with
  | eval => path.eval root
  | set value => edited path (fun path => path.set value) root
  | remove => edited path Path.remove root
  | append values => edited path (fun path => path.append values) root
  | patch operations => do (Document.ofTree root).patched (← PatchOperation.parseAll operations)
  | size => (path.size root).map Tree.integer
  | keys => (path.keys? root).map fun
    | some names => .array (names.map Tree.string)
    | none => .null
  | contains => (path.contains root).map Tree.bool
  | paths => (path.eval root).map fun selected => .object selected.listing

end Action

namespace Options

/-- The answer to a command; the path is compiled before the document is read. -/
def answer (options : Options) (input : String) : Except Fault Tree := do
  let path ← Path.compile (options.path.getD "$") (!options.keepNulls)
  if options.stream then path.extractFrom input
  else
    match Tree.parse input with
    | some root => options.action.run path root
    | none => throw .malformedJson

/-- What a command prints for an input, which may have been unreadable. -/
def execute (options : Options) (input : Except String String) : Output :=
  match input with
  | .error reason => Output.ofUsageFault (.unreadable reason)
  | .ok text =>
    match options.answer text with
    | .ok tree => Output.printed (if options.pretty then tree.toPrettyJson else tree.toJson)
    | .error fault => Output.ofFault fault

end Options

end TreeQuery
