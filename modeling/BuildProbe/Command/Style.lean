import BuildProbe.Environment
import BuildProbe.Text.Control
/-!
Styles of printed text. A styled text stands behind the control sequences that switch its style
on, and the one that ends all styles follows it. No output is taken to be a terminal, so styles
are shown only when a variable forces them.
-/
namespace BuildProbe.Command

def marked (styles : List String) (text : String) : String :=
  String.join (styles.map fun codes => "\x1b[" ++ codes ++ "m") ++ text ++ "\x1b[0m"

def heading (text : String) : String := marked ["1", "4"] text

def literal (text : String) : String := marked ["1"] text

def alarm (text : String) : String := marked ["1", "31"] text

def valid (text : String) : String := marked ["32"] text

def invalid (text : String) : String := marked ["33"] text

def styled (colour : Bool) (styles : List String) (text : String) : String :=
  if colour then marked styles text else text

def display (colour : Bool) (text : String) : String := if colour then text else Text.shown text

def coloured (environment : Environment) : Bool :=
  (environment.seen? "CLICOLOR_FORCE").any (· != "0")

def colouredHelp (environment : Environment) : Bool :=
  let filled (name : String) := (environment.seen? name).any (· != "")
  filled "CLICOLOR_FORCE" && !filled "NO_COLOR"

end BuildProbe.Command
