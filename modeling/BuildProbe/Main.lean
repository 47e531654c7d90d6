import BuildProbe.Command
import BuildProbe.Tree.Layout
import BuildProbe.World
/-!
The command line. It runs in a world without programs: arguments and environment are those of
the process, the tree is an empty one of its own, so that every probe is one that is not found.
-/
namespace BuildProbe.Main

def known : List String :=
  Command.Key.all.filterMap Command.Key.standIn?
    ++ ["HOME", "CLICOLOR_FORCE", "NO_COLOR", Filter.variableName,
      Command.Conclusion.formatVariable]

def environment : IO Environment := do
  let values ← known.mapM fun name => do return (← IO.getEnv name).map fun value => (name, value)
  return .ofList (values.filterMap id)

end BuildProbe.Main

def main (args : List String) : IO UInt32 := do
  let environment ← BuildProbe.Main.environment
  let (conclusion, _) := BuildProbe.Command.run (.new .bare environment) args false
  for event in conclusion.logged environment do
    IO.eprintln (event.level.name ++ " " ++ event.message)
  match conclusion with
  | .halted (.misuse m) => IO.eprintln (m.text (BuildProbe.Command.colouredHelp environment))
  | _ => IO.eprint (conclusion.stderr environment)
  IO.print (conclusion.stdout environment)
  return conclusion.status.toUInt32
