import Questionnaire.CommandLine

/-!
# The program

Reads the files a command names, runs it, and prints its outcome.
-/

open Questionnaire.CommandLine

/-- The content of a file, or why it cannot be read. -/
def readFile (path : String) : IO (Except String String) := do
  try
    return .ok (← IO.FS.readFile path)
  catch e =>
    match e with
    | .noFileOrDirectory .. => return .error "No such file or directory (os error 2)"
    | e => return .error (toString e)

/-- How the program is called. -/
def usage : String :=
  "usage: check FORM | next FORM PAGE STATE | validate FORM PAGE PAYLOAD | summary FORM STATE"

/-- Runs the command that the arguments spell. -/
def main (args : List String) : IO UInt32 := do
  match Command.ofArgs? args with
  | none =>
    IO.eprintln usage
    return 2
  | some command =>
    let contents ← command.files.mapM fun path => do
      return (path, ← readFile path)
    let outcome := run (fun path => (contents.lookup path).getD (.error "not read")) command
    IO.print outcome.stdout
    IO.eprint outcome.stderr
    return outcome.code.toUInt32
