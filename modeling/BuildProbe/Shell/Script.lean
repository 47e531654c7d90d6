import BuildProbe.Shell.Reader
import BuildProbe.Shell.Session
/-!
Scripts and processes. A script is read one command at a time, and each is run before the next is
read, so that what is run first is run although the script cannot be read to its end. A process
keeps what it changes to itself, except for the tree and for what it has written and read.
-/
namespace BuildProbe.Shell

open Text (Bytes)
open Work

abbrev Runner := (tested : Bool) → Command → Work Nat

def endless : Interrupt := .stays ⟨false, some 0⟩

def settle (status : Nat) : Work Nat := do
  update fun p => { p with status := status }
  return status

def unread : Option OpenFile → Work Bytes
  | none => return []
  | some file => do return (← contents file).drop file.offset

def readable (text : Bytes) : Bytes := text.filter (· ≠ 0)

/-- Runs the commands of a script one after another. What is new in its file is read when the
text before has come to its end. -/
def runFrom (run : Runner) (file : Option OpenFile) (reader : Reader) (status : Nat) :
    (limit : Nat) → Work Nat
  | 0 => throw endless
  | limit + 1 => do
    let new ← unread file
    let rest := if new = [] then reader.rest else reader.rest ++ readable new
    let reader := { reader with rest := rest, nextDocument := (← get).unused }
    match reader.command with
    | .error fault _ => do
      update fun p => { p with line := fault.line }
      Work.fail [] ("Syntax error: " ++ fault.what)
    | .ok none _ => return status
    | .ok (some command) reader => do
      modify fun s =>
        { s with
          unused := max s.unused reader.nextDocument
          process.documents := reader.documents ++ s.process.documents
          process.reached := reader.line }
      let length := (readable new).length
      let entered := reader.rest.length < length
      let rest :=
        if entered then reader.rest else reader.rest.take (reader.rest.length - length)
      let file := if entered then file.map (·.skip new.length) else file
      let held := reader.held.filter (!·.isFinish)
      let reader := { reader with rest := rest, held := held, documents := [] }
      match command with
      | .nothing => runFrom run file reader status limit
      | _ => runFrom run file reader (← run false command) limit

def runText (run : Runner) (text : Bytes) : Work Nat :=
  runFrom run none (.start (readable text)) 0 (text.length + 1)

def runPath (run : Runner) (path : Bytes) : Work Nat := do
  match (← tree).resolve true (Image.path path) with
  | .ok (.at loc _) =>
    let file : OpenFile := ⟨loc, 0, true, false, false⟩
    let text ← contents file
    runFrom run (some (file.skip text.length)) (.start (readable text)) 0
      (text.length + (← get).patience)
  | _ => return 0

def finish (run : Runner) (act : Work Nat) : Work Nat := do
  let ended (act : Work Nat) : Work Nat := do
    match ← outcome act with
    | .ok status => settle status
    | .error (.stays hang) => throw (.stays hang)
    | .error (.dies signal) => throw (.dies signal)
    | .error _ => return (← process).status
  let status := (← ended act) % 256
  match (← process).traps.find? (·.1 = 0) with
  | none => return status
  | some (_, text) =>
    setTrap 0 none
    let own : Work Nat := do
      let _ ← runText run text
      return status
    return (← ended own) % 256

def apart (run : Runner) (act : Work Nat) : Work Nat := do
  let before ← process
  update fun p => { p with traps := p.inheritedTraps, caught := [] }
  ending (finish run act) (update fun _ => before)

def gathered (act : Channel → Work Nat) : Work (Bytes × Nat) := do
  let channel := Channel.gathering (← unused)
  let status ← act channel
  let s ← get
  let own (w : Channel × Bytes) : Bool := w.1 = channel
  let text := (s.writes.filter own).reverse ++ s.late.filter own
  modify fun s =>
    { s with
      writes := s.writes.filter (!own ·)
      late := s.late.filter (!own ·) }
  return (text.flatMap (·.2), status)

def capture (run : Runner) (command : Command) : Work Bytes := do
  let (text, status) ← gathered fun channel => apart run do
    connect 1 (some channel)
    run false command
  update fun p => { p with captured := status }
  return text

end BuildProbe.Shell
