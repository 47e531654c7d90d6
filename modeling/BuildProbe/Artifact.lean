import BuildProbe.Flag
import BuildProbe.Text.Json.Reader
/-!
The artifact: one flag a line, each line ended by a line feed, and nothing else. Persisting it
either replaces the destination or finds the same bytes there already.
-/
namespace BuildProbe

def Artifact.render (fs : List Flag) : String :=
  String.ofList (fs.flatMap fun f => f.display.toList ++ ['\n'])

inductive Outcome where
  | written
  | unchanged
  deriving DecidableEq, Repr

namespace Outcome

def name : Outcome → String
  | .written => "WRITTEN"
  | .unchanged => "UNCHANGED"

def ofName? (s : String) : Option Outcome :=
  if s = written.name then some .written
  else if s = unchanged.name then some .unchanged
  else none

def ofJson? : Json → Option Outcome
  | .str s => ofName? s
  | .obj [(s, .null)] => ofName? s
  | _ => none

def parse? (s : String) : Option Outcome := do ofJson? (← Json.parse? s)

end Outcome
end BuildProbe
