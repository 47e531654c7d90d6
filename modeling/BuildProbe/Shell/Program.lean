import BuildProbe.Probe.Signal
import BuildProbe.Shell.Script
/-!
Programs that commands start. A name with a slash is a path; any other is looked for along the
search path of the shell. A text that nothing can run is a script, which the shell runs in a
process of its own.
-/
namespace BuildProbe.Shell

open Text (Bytes)
open Work

def ended (signal : Nat) (last : Bool) : Work Nat := do
  if last then throw (.dies signal)
  unless signal = 2 ∨ signal = 13 do
    let _ ← write 2 (Text.encode (Signal.title signal ++ "\n"))
  return 128 + signal

def replay (chunks : List Chunk) : Work (List (Channel × Bytes)) := do
  let out ← channel? 1
  let err ← channel? 2
  return chunks.filterMap fun c =>
    ((match c.stream with
      | .out => out
      | .err => err).map (·, c.bytes))

def runProgram (launch : Launch) (last : Bool) : Work Nat := do
  let p ← process
  let given ← if launch.program.drains then input 0 else pure []
  if launch.program.drains then leave 0 []
  let story := launch.program.story p.environment launch.arguments.length given.length
  for (channel, bytes) in ← replay story.writes do
    let _ ← send channel bytes
  if let some late := story.late then
    let late ← replay ([⟨.out, []⟩, ⟨.err, []⟩] ++ late)
    modify fun s => { s with late := s.late ++ late }
  match story.ending with
  | .exits status => return status.toNat
  | .dies signal => ended signal last
  | .hangs hang => throw (if last then .stays hang else endless)

def Process.fresh (p : Process) (name : Bytes) (arguments : List Bytes) : Process :=
  { name := name, arguments := arguments, store := Variable.initial p.environment
    hidden := none, functions := [], channels := p.channels, options := [], status := 0
    captured := 0, line := 1, reached := 1, running := none, loops := 0
    traps := p.inheritedTraps, caught := [], documents := [], present := p.present, mask := p.mask }

def start (run : Runner) (path : Bytes) (words : List Bytes) (last : Bool) :
    Work (Except Errno Nat) := do
  let t ← tree
  let file := Image.path path
  let tooMuch := Image.overlong (← process).environment
  match Image.run t tooMuch words file with
  | .ok launch => return .ok (← runProgram launch last)
  | .error .execFormat =>
    unless Image.formatless t file do return .error .execFormat
    let script : Work Nat := apart run do
      update fun p => p.fresh path words
      runPath run path
    match ← outcome script with
    | .error (.dies signal) => return .ok (← ended signal last)
    | .error e => throw e
    | .ok status => return .ok status
  | .error e => return .error e

def candidates (p : Process) (name : Bytes) : List Bytes :=
  let path := ((p.store.find? (·.name = Text.encode "PATH")).bind (·.value)).getD []
  let directories := (List.splitOn ':' (Text.decode path).toList).map String.ofList
  directories.map fun dir => if dir = "" then name else Text.encode (dir ++ "/") ++ name

def located (t : Tree) (reason : Errno) : List Bytes → Except Errno (List Bytes)
  | [] => .error reason
  | path :: rest =>
    match Image.image t (Image.path path) with
    | .ok _ => .ok (path :: rest)
    | .error e => located t (if e = .notFound ∨ e = .notADirectory then reason else e) rest

def startFirst (run : Runner) (words : List Bytes) (last : Bool) (reason : Errno) :
    List Bytes → Work (Except Errno Nat)
  | [] => return .error reason
  | path :: rest => do
    match ← start run path words last with
    | .ok status => return .ok status
    | .error e =>
      let reason := if e = .notFound ∨ e = .notADirectory then reason else e
      startFirst run words last reason rest

def cannotRun (name : Bytes) (e : Errno) : Work Unit :=
  complainText name (": " ++ ofErrno e "not found")

def runExternal (run : Runner) (name : Bytes) (words : List Bytes) (last : Bool) : Work Nat := do
  let t ← tree
  let p ← process
  let found :=
    if name.contains 0x2F then .ok [name] else located t .notFound (candidates p name)
  match found with
  | .error e =>
    cannotRun name e
    return 127
  | .ok paths =>
    match ← startFirst run words last .notFound paths with
    | .ok status =>
      if last then setTrap 0 none
      return status
    | .error e =>
      cannotRun name e
      return if [Errno.notFound, .notADirectory, .nameTooLong, .tooManyLinks].contains e then 127
        else 126

end BuildProbe.Shell
