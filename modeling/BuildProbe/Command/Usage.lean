import BuildProbe.Command.Arguments
import BuildProbe.Release
/-!
What the command says about itself: its options with what they are for, and the variables that
stand in for them with their present values. It is written with styles.
-/
namespace BuildProbe.Command

def Key.letter? : Key → Option String
  | output => some "o"
  | probe | target | env | report => none

def Key.purpose : Key → String
  | probe => "Probe executable to run"
  | output => "Flag file to write"
  | target => "Target triple passed to the probe as TARGET (empty: no explicit target)"
  | env => "Extra environment override for the probe (repeatable)"
  | report => "Report format printed on success"

def Key.defaults (k : Key) (environment : Environment) : String :=
  (match k.standIn? with
    | some name => " [env: " ++ name ++ "=" ++ (environment.seen? name).getD "" ++ "]"
    | none => "")
  ++ match k with
    | .target => " [default: \"\"]"
    | .report => " [default: " ++ Format.text.name ++ "] [possible values: "
      ++ ", ".intercalate (Format.all.map Format.name) ++ "]"
    | _ => ""

def columnWidth : Nat := 25

def blanks (n : Nat) : String := String.ofList (List.replicate n ' ')

def indented (text : String) : String :=
  ("\n" ++ blanks columnWidth).intercalate ((List.splitOn '\n' text.toList).map String.ofList)

def row (letter? : Option String) (long value text : String) : String :=
  let letter := match letter? with
    | some c => literal ("-" ++ c) ++ ", "
    | none => blanks 4
  "  " ++ letter ++ literal ("--" ++ long) ++ value
    ++ blanks (columnWidth - (8 + long.length + value.length)) ++ indented text ++ "\n"

def Key.row (k : Key) (environment : Environment) : String :=
  Command.row k.letter? k.long (" <" ++ k.value ++ ">") (k.purpose ++ k.defaults environment)

def Key.synopsis (k : Key) : String := literal ("--" ++ k.long) ++ " <" ++ k.value ++ ">"

def help (environment : Environment) : String :=
  "Translate build probe cfg directives into a rustc flag file\n\n" ++ heading "Usage:" ++ " "
    ++ literal commandName ++ " [OPTIONS] " ++ Key.probe.synopsis ++ " " ++ Key.output.synopsis
    ++ "\n\n" ++ heading "Options:" ++ "\n" ++ String.join (Key.all.map (·.row environment))
    ++ row (some "h") "help" "" "Print help" ++ row (some "V") "version" "" "Print version"

def versionLine : String := commandName ++ " " ++ version ++ "\n"

end BuildProbe.Command
