import EnumLookup.CommandLine.Run

/-!
# The program

The command line on the file system of the machine.
-/

namespace EnumLookup

def succeeds (action : IO Unit) : IO Bool :=
  try
    action
    return true
  catch _ => return false

/-- The machine's file system. -/
def machine : FileSystem IO where
  read p :=
    try
      return some (← IO.FS.readFile p.text)
    catch _ => return none
  createDirectories p := succeeds (IO.FS.createDirAll p.text)
  write p content := succeeds (IO.FS.writeFile p.text content)
  rename p q := succeeds (IO.FS.rename p.text q.text)

end EnumLookup

def main (args : List String) : IO UInt32 := do
  let outcome ← EnumLookup.CommandLine.run EnumLookup.machine args
  IO.print outcome.output
  for warning in outcome.warnings do
    IO.eprintln warning
  if outcome.exit = 2 then
    IO.eprintln EnumLookup.CommandLine.usage
  for cause in outcome.causes do
    IO.eprintln ("Error: " ++ cause)
  return outcome.exit.toUInt32
