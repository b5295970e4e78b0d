import TaggedSchema.Command.Arguments

/-!
# The command line

Reads the files that a command names, carries the command out, and prints what it says.
-/

namespace TaggedSchema

/-- The contents of a file, if it can be read. -/
def readFile? (name : String) : IO (Option String) := do
  try
    return some (← IO.FS.readFile name)
  catch _ =>
    return none

/-- Carry out a command on files on disk. The exit code tells whether the verdict is good. -/
def Command.execute (command : Command) : IO UInt32 := do
  let contents ← command.files.mapM fun name => do return (name, ← readFile? name)
  match command.run fun name => (contents.lookup name).bind id with
  | .ok output =>
    IO.print output.stdout
    IO.eprint output.stderr
    return if output.isOk then 0 else 1
  | .error error =>
    IO.eprintln ("Error: " ++ error.message)
    return 1

end TaggedSchema

def main (arguments : List String) : IO UInt32 := do
  match TaggedSchema.Command.ofArguments? arguments with
  | some command => command.execute
  | none =>
    IO.eprint TaggedSchema.Command.usage
    return 2
