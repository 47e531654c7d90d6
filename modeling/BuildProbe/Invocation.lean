import BuildProbe.Environment
/-!
What is asked of a probe: the program to start and the variables set for it on top of the
environment of whoever starts it. It gets no arguments and no input.
-/
namespace BuildProbe

def targetVariable : String := "TARGET"

structure Invocation where
  program : String
  overrides : Environment
  deriving DecidableEq

namespace Invocation

def new (program : String) : Invocation := ⟨program, .empty⟩

def untargeted (program : String) : Invocation := ⟨program, Environment.empty.set targetVariable ""⟩

def withVariable (i : Invocation) (name value : String) : Invocation :=
  { i with overrides := i.overrides.set name value }

def withVariables (i : Invocation) (vars : List (String × String)) : Invocation :=
  { i with overrides := i.overrides.setAll vars }

inductive Step where
  | set (name value : String)
  | setAll (vars : List (String × String))
  deriving DecidableEq, Repr

def apply (i : Invocation) : Step → Invocation
  | .set name value => i.withVariable name value
  | .setAll vars => i.withVariables vars

def history (i : Invocation) : List Step → List Invocation
  | [] => []
  | s :: steps => i.apply s :: history (i.apply s) steps

end Invocation
end BuildProbe
