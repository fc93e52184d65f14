import OpenApiZod.Command

/-!
# The program

Runs the command that the arguments ask for on the files of the machine.
-/

namespace OpenApiZod

/-- Whether an action succeeds. -/
def succeeds (action : IO Unit) : IO Bool := do
  try
    action
    return true
  catch _ => return false

instance : Storage IO where
  exists? path := succeeds do
    let _ ← IO.FS.Handle.mk path .read
  read? path := do
    try
      return some (← IO.FS.readFile path)
    catch _ => return none
  makeDirectories path := succeeds (unless path.isEmpty do IO.FS.createDirAll path)
  write path text := succeeds (IO.FS.writeFile path text)

/-- How the program is called. -/
def usage : String := String.join [
  "Usage: zodgen generate [-i FILE] [-o DIRECTORY]\n",
  "       zodgen inspect -i FILE [--format yaml|json]\n",
  "       zodgen init [--force]\n"]

/-- Runs the program. -/
def runProgram (arguments : List String) : IO UInt32 := do
  match Command.ofArguments? arguments with
  | none =>
    IO.eprint usage
    return 2
  | some command =>
    match ← command.run.run with
    | .ok printed =>
      IO.print printed.result
      IO.eprint printed.notes
      return 0
    | .error error =>
      IO.eprintln ("Error: " ++ error.message)
      return 1

end OpenApiZod

/-- The program. -/
def main (arguments : List String) : IO UInt32 := OpenApiZod.runProgram arguments
