import BuildProbe.Command.Arguments
import BuildProbe.Pipeline
/-!
What a run prints. A report goes to standard output as lines or as one JSON object; a failure
goes to standard error as a chain of causes, each with its number, whose further lines stand
under its text.
-/
namespace BuildProbe.Command

def headline (colour : Bool) : Outcome → String
  | .written => styled colour ["1;32"] "✓ cfg flags written"
  | .unchanged => styled colour ["32"] "✓ cfg flags unchanged"

def labelled (colour : Bool) (label text : String) : String :=
  "  " ++ styled colour ["1"] label ++ " " ++ text ++ "\n"

def reportLines (colour : Bool) (r : Report) : String :=
  headline colour r.outcome ++ "\n" ++ labelled colour "Probe:" r.probe
    ++ labelled colour "Output:" r.output ++ labelled colour "Flags:" (toString r.flags.length)
    ++ String.join (r.flags.map fun f => "    " ++ f ++ "\n")
    ++ labelled colour "Duration:" (toString r.duration.toInt ++ " ms")

def reportText (colour : Bool) (format : Format) (r : Report) : String :=
  match format with
  | .text => reportLines colour r
  | .json => r.toJson.render ++ "\n"

def numbered (n : Nat) (text : String) : String :=
  "    " ++ toString n ++ ": "
    ++ String.ofList (List.intercalate "\n       ".toList (List.splitOn '\n' text.toList)) ++ "\n"

def failureText (program : String) (f : RunFailure) : String :=
  "Error: " ++ commandName ++ " failed for " ++ program ++ "\n\nCaused by:\n"
    ++ numbered 0 f.message ++ numbered 1 f.cause

end BuildProbe.Command
