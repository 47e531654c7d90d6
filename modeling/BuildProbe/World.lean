import BuildProbe.Artifact.Site
import BuildProbe.Shell.Execution
import BuildProbe.World.Services
/-!
The world that the program is tried in: its shell, and the site at which it works.
-/
namespace BuildProbe

/-- How many rounds of a loop a script has before it counts as endless. -/
def patience : Nat := 50000

def World.new (tree : Tree) (environment : Environment) : World :=
  ⟨tree, environment, ⟨0, 0⟩, defaultGrace, none, Shell.conduct patience, .standard⟩

namespace Tree

def identity? (t : Tree) (p : Path) : Option Nat :=
  match t.lstat p with
  | .ok e => some e.id
  | .error _ => none

def kept? (before after : Tree) (p : Path) : Option Bool :=
  (before.identity? p).map fun id => after.identity? p = some id

end Tree
end BuildProbe
