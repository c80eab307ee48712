import TreeQuery.Json.Reader

/-!
Arguments of the command line.
-/

namespace TreeQuery

inductive Action
  | eval
  | set (value : Tree)
  | remove
  | append (values : List Tree)
  | patch (operations : String)
  | size
  | keys
  | contains
  | paths
deriving Inhabited

namespace Action

def isEval : Action → Bool
  | eval => true
  | _ => false

def isPatch : Action → Bool
  | patch _ => true
  | _ => false

/-- Values to append add up as long as no other action comes between. -/
def appending (value : Tree) : Action → Action
  | append values => append (values ++ [value])
  | _ => append [value]

end Action

structure Options where
  path : Option String := none
  json : Option String := none
  file : Option String := none
  action : Action := .eval
  stream : Bool := false
  keepNulls : Bool := false
  pretty : Bool := false
deriving Inhabited

inductive UsageFault
  | noArguments
  | help
  | missingValue (option : String)
  | unknownOption (option : String)
  | unexpectedArgument (argument : String)
  | twoInputs
  | missingPath
  | streamedAction
  | unreadable (reason : String)
deriving DecidableEq, Repr

inductive Input
  | text (json : String)
  | file (name : String)
  | standard
deriving DecidableEq, Repr

namespace Options

/-- A value is JSON if it reads as JSON, else a string. -/
def valueOf (text : String) : Tree := (Tree.parse text).getD (.string text)

def withValue? (options : Options) (option value : String) : Option Options :=
  match option with
  | "--json" => some { options with json := some value }
  | "--file" => some { options with file := some value }
  | "--set" => some { options with action := .set (valueOf value) }
  | "--add" => some { options with action := options.action.appending (valueOf value) }
  | "--patch" => some { options with action := .patch value }
  | _ => none

def alone? (options : Options) (option : String) : Option Options :=
  match option with
  | "--remove" => some { options with action := .remove }
  | "--size" => some { options with action := .size }
  | "--keys" => some { options with action := .keys }
  | "--contains" => some { options with action := .contains }
  | "--paths" => some { options with action := .paths }
  | "--stream" => some { options with stream := true }
  | "--keep-nulls" => some { options with keepNulls := true }
  | "--pretty" => some { options with pretty := true }
  | _ => none

def takesValue (option : String) : Bool := ["--json", "--file", "--set", "--add", "--patch"].contains option

/-- Reads an argument that belongs to none of the known options. -/
def argument (options : Options) (text : String) : Except UsageFault Options :=
  if text == "-h" || text == "--help" then .error .help
  else if "--".toList.isPrefixOf text.toList then .error (.unknownOption text)
  else if options.path.isNone then .ok { options with path := some text }
  else .error (.unexpectedArgument text)

def readAll (options : Options) : List String → Except UsageFault Options
  | [] => .ok options
  | option :: rest =>
    match options.alone? option with
    | some options => readAll options rest
    | none =>
      if takesValue option then
        match rest with
        | value :: rest => readAll ((options.withValue? option value).getD options) rest
        | [] => .error (.missingValue option)
      else
        match options.argument option with
        | .ok options => readAll options rest
        | .error fault => .error fault

/-- Refuses options that do not go together. -/
def check (options : Options) : Except UsageFault Options :=
  if options.json.isSome && options.file.isSome then .error .twoInputs
  else if options.path.isNone && !options.action.isPatch then .error .missingPath
  else if options.stream && !options.action.isEval then .error .streamedAction
  else .ok options

def parse (arguments : List String) : Except UsageFault Options :=
  if arguments.isEmpty then .error .noArguments else ({} : Options).readAll arguments >>= check

def input (options : Options) : Input :=
  match options.json, options.file with
  | some text, _ => .text text
  | none, some name => .file name
  | none, none => .standard

end Options

end TreeQuery
