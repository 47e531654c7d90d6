import BuildProbe.Text.Lines
/-!
The probe protocol. A line of a probe's output that starts with the directive mark asks for one
compiler flag, and its value is the rest of the line, verbatim. A line that starts with the
warning mark carries a message for the log. Every other line is dropped.
-/
namespace BuildProbe

structure Flag where
  value : String
  deriving DecidableEq, Repr

namespace Flag

def directiveMark : String := "cargo:rustc-cfg="

def optionMark : String := "--cfg="

def display (f : Flag) : String := optionMark ++ f.value

def ofLine? (line : List Char) : Option Flag :=
  (Text.after? directiveMark.toList line).map fun v => ⟨String.ofList v⟩

def ofDirective? (line : String) : Option Flag := ofLine? line.toList

end Flag

namespace Directive

def warningMark : String := "cargo:warning="

def warningOfLine? (line : List Char) : Option String :=
  (Text.after? warningMark.toList line).map String.ofList

def flags (raw : String) : List Flag := (Text.lines raw.toList).filterMap Flag.ofLine?

def warnings (raw : String) : List String := (Text.lines raw.toList).filterMap warningOfLine?

end Directive
end BuildProbe
