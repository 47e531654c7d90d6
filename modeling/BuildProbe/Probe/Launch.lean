import BuildProbe.Invocation
import BuildProbe.Probe.Image
/-!
Starting a program. A name with a slash is a path. Any other name is looked for in the
directories of the search path, as the program's own environment has it: a file that may not be
run is passed over, and is the reason given in the end when no other is found. A text that names
an interpreter in its first line is run by it. One that nothing can run is left to the shell when
the invocation says where to search. What a program or the shell then does in the tree is a matter
of conduct, of which nothing is assumed.
-/
namespace BuildProbe

open Text (Bytes)

def searchVariable : String := "PATH"

def defaultSearch : String := "/bin:/usr/bin"

namespace Launch

inductive Found where
  | program (launch : Launch)
  | script (path : Bytes)

def runFound (t : Tree) (overlong shell : Bool) (name : String) : Except Errno Found :=
  match Image.run t overlong [] (.ofText name) with
  | .error .execFormat =>
    if shell ∧ Image.formatless t (.ofText name) then .ok (.script (Text.encode name))
    else .error .execFormat
  | result => result.map .program

theorem runScript {t : Tree} {overlong shell : Bool} {name : String} {path : Bytes}
    (ran : runFound t overlong shell name = .ok (.script path)) : shell = true := by
  unfold runFound at ran
  split at ran
  · split at ran
    · rename_i left
      exact left.1
    · cases ran
  · cases result : Image.run t overlong [] (.ofText name) <;> rw [result] at ran <;> cases ran

/-- Looks for a name in directories; an empty one is the present directory. Without permission
somewhere, that is the reason why none is found, else the last one there was. -/
def search (t : Tree) (overlong shell : Bool) (name : String) (denied : Bool) (last : Errno) :
    List String → Except Errno Found
  | [] => .error (if denied then .permissionDenied else last)
  | dir :: rest =>
    match runFound t overlong shell (if dir = "" then name else dir ++ "/" ++ name) with
    | .ok found => .ok found
    | .error .permissionDenied => search t overlong shell name true last rest
    | .error .notFound => search t overlong shell name denied .notFound rest
    | .error .notADirectory => search t overlong shell name denied .notADirectory rest
    | .error e => .error e

theorem searchScript {t : Tree} {overlong shell denied : Bool} {name : String} {last : Errno}
    {dirs : List String} {path : Bytes}
    (done : search t overlong shell name denied last dirs = .ok (.script path)) : shell = true := by
  induction dirs generalizing denied last with
  | nil => cases done
  | cons dir rest ih =>
    rw [search] at done
    split at done
    · rename_i ran
      cases done
      exact runScript ran
    · exact ih done
    · exact ih done
    · exact ih done
    · cases done

def directoryLimit : Nat := 4096

/-- The directories with the present one for those that have too long a name. If the last has
one, it is left out. -/
def searchable : List String → List String
  | [] => []
  | [dir] => if dir.utf8ByteSize < directoryLimit then [dir] else []
  | dir :: rest => (if dir.utf8ByteSize < directoryLimit then dir else "") :: searchable rest

def directories (ambient overrides : Environment) : List String :=
  let path := (overrides.get? searchVariable).or (ambient.seen? searchVariable)
  searchable ((List.splitOn ':' (path.getD defaultSearch).toList).map String.ofList)

def given (ambient : Environment) (i : Invocation) : Environment :=
  ambient.received.override i.overrides

def find (t : Tree) (ambient : Environment) (i : Invocation) : Except Errno Found :=
  let overlong := Image.overlong (given ambient i)
  if i.program = "" then .error .notFound
  else if i.program.toList.contains '/' then
    (Image.run t overlong [] (.ofText i.program)).map .program
  else
    let shell := (i.overrides.get? searchVariable).isSome
    search t overlong shell i.program false .notFound (directories ambient i.overrides)

theorem findScript {t : Tree} {ambient : Environment} {i : Invocation} {path : Bytes}
    (found : find t ambient i = .ok (.script path)) :
    (i.overrides.get? searchVariable).isSome = true := by
  unfold find at found
  dsimp only at found
  split at found
  · cases found
  · split at found
    · cases result : Image.run t _ [] (.ofText i.program) <;> rw [result] at found <;> cases found
    · exact searchScript found

def hasNul (s : String) : Bool := s.toList.contains '\x00'

def unpassable (i : Invocation) : Bool :=
  hasNul i.program || i.overrides.vars.any fun w => hasNul w.1 || hasNul w.2

end Launch

/-- What is made of a probe that has been found, in a tree and with an environment: the story that
its streams tell, and the tree that it leaves. -/
abbrev Conduct := Tree → Environment → Launch.Found → Performance

namespace Conduct

def direct (shell : Tree → Bytes → Environment → Performance) : Conduct
  | t, environment, .program launch =>
    ⟨launch.program.story environment launch.arguments.length 0, t⟩
  | t, environment, .script path => shell t path environment

end Conduct

def Launch.perform (conduct : Conduct) (t : Tree) (ambient : Environment) (i : Invocation) :
    Except Refusal Performance :=
  match unpassable i, find t ambient i with
  | true, _ => .error .nulInData
  | false, .error e => .error (.system e)
  | false, .ok found => .ok (conduct t (given ambient i) found)

theorem Launch.performFound {conduct : Conduct} {t : Tree} {ambient : Environment} {i : Invocation}
    {performance : Performance} : perform conduct t ambient i = .ok performance ↔
      unpassable i = false ∧ ∃ found, find t ambient i = .ok found ∧
        performance = conduct t (given ambient i) found := by
  unfold perform
  cases unpassable i with
  | true => exact ⟨nofun, nofun⟩
  | false =>
    cases find t ambient i with
    | error why => exact ⟨nofun, fun ⟨_, _, located, _⟩ => nomatch located⟩
    | ok found =>
      constructor
      · rintro ⟨⟩
        exact ⟨rfl, found, rfl, rfl⟩
      · rintro ⟨_, _, ⟨⟩, rfl⟩
        rfl

end BuildProbe
