import TreeQuery.Command.Run

/-!
The command line program.
-/

open TreeQuery

/-- The reason why a file could not be read, as it is reported. -/
def TreeQuery.readFailure : IO.Error → String
  | .noFileOrDirectory .. => "No such file or directory (os error 2)"
  | .permissionDenied .. => "Permission denied (os error 13)"
  | .inappropriateType .. => "Is a directory (os error 21)"
  | .userError _ => "stream did not contain valid UTF-8"
  | failure => toString failure

def TreeQuery.readInput : Input → IO (Except String String)
  | .text json => return .ok json
  | .file name => do
    try return .ok (← IO.FS.readFile name)
    catch failure => return .error (readFailure failure)
  | .standard => do
    try return .ok (← (← IO.getStdin).readToEnd)
    catch failure => return .error (readFailure failure)

def TreeQuery.report (output : Output) : IO UInt32 := do
  IO.print output.stdout
  IO.eprint output.stderr
  return output.code.toUInt32

def main (arguments : List String) : IO UInt32 := do
  match Options.parse arguments with
  | .error fault => report (Output.ofUsageFault fault)
  | .ok options => report (options.execute (← readInput options.input))
