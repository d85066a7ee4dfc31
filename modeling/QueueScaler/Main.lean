import QueueScaler.CommandLine.Execution
/-!
# The program

Reads the file that a command names, carries the command out, and prints what it says. The exit code
is 2 for a command line that asks for nothing known, and 1 for a failure.
-/

namespace QueueScaler.CommandLine

/-- How the program is called. -/
def usage : String :=
  "usage: run [--config FILE] [--port PORT] [--dry-run] [--application LABEL]\n" ++
  "       check [--config FILE]\n"

/-- The content of a file, or what the system says about it. -/
def readFile (path : String) : IO (Except String (List UInt8)) := do
  try
    let content ← IO.FS.readBinFile path
    return .ok content.toList
  catch e => return .error (toString e)

/-- Prints how a command ended; the exit code. -/
def report (system : String) : Outcome → IO UInt32
  | .misused => do
    IO.eprint usage
    return 2
  | .helped => do
    IO.print usage
    return 0
  | .failed failure => do
    IO.eprint (failure.text system)
    return 1
  | .done text => do
    IO.print text
    return 0
  | .ready options .. => do
    IO.eprint (Failure.text "this program has no sockets" (.binding options.port))
    return 1

end QueueScaler.CommandLine

open QueueScaler.CommandLine in
/-- The program. -/
def main (args : List String) : IO UInt32 := do
  match (Command.parse? args).bind Command.file? with
  | none => report "" (execute (fun _ ↦ none) args)
  | some path =>
    match ← readFile path with
    | .ok content => report "" (execute (fun _ ↦ some content) args)
    | .error system => report system (execute (fun _ ↦ none) args)
