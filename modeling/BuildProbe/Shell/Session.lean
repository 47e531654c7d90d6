import BuildProbe.Probe.Image
import BuildProbe.Shell.Syntax
/-!
The state of a shell. A process has its variables, parameters and descriptors to itself, and what
it starts begins with a copy of them; the tree, what was written, and how far a file was read or
written, are the same for all. What a command does is an action, which may end more than that
command.
-/
namespace BuildProbe.Shell

open Text (Bytes)

inductive Channel where
  | stream (stream : Stream)
  | gathering (number : Nat)
  | source (number : Nat)
  | file (number : Nat)
  | void
  deriving DecidableEq, Repr

structure Variable where
  name : Bytes
  value : Option Bytes
  exported : Bool
  fixed : Bool
  deriving DecidableEq, Repr

structure Process where
  name : Bytes
  arguments : List Bytes
  store : List Variable
  /-- Variables of the present function, if there is one, with what they were before it. -/
  hidden : Option (List (Bytes × Option Variable))
  functions : List (Bytes × Command)
  channels : List (Nat × Channel)
  options : Bytes
  status : Nat
  captured : Nat
  line : Nat
  reached : Nat
  running : Option Bytes
  loops : Nat
  /-- What is run when a signal comes, by its number, and at the end, by zero. A signal for which
  that is nothing is passed over. -/
  traps : List (Nat × Bytes)
  caught : List Nat
  documents : List Document
  /-- The present directory and those above it. -/
  present : List Nat
  mask : Nat

structure OpenFile where
  location : Location
  offset : Nat
  reads : Bool
  writes : Bool
  appends : Bool
  deriving DecidableEq, Repr

def OpenFile.skip (file : OpenFile) (length : Nat) : OpenFile :=
  { file with offset := file.offset + length }

structure Session where
  process : Process
  tree : Tree
  /-- The last write first. -/
  writes : List (Channel × Bytes)
  /-- What processes that were left behind write in the end. They write nothing to what they only
  keep open. -/
  late : List (Channel × Bytes)
  sources : List (Nat × Bytes)
  files : List (Nat × OpenFile)
  /-- A number that no gathering, source, file or document has. -/
  unused : Nat
  /-- After how many rounds of a loop, or commands that a script has added to itself, the script is
  taken for one that does not end. -/
  patience : Nat

inductive Interrupt where
  | leaves (loops : Nat)
  | repeats (loops : Nat)
  | returns
  | exits
  | fails
  | stays (hang : Hang)
  | dies (signal : Nat)
  deriving DecidableEq, Repr

abbrev Work := EStateM Interrupt Session

namespace Work

def process : Work Process := do return (← get).process

def update (f : Process → Process) : Work Unit := modify fun s => { s with process := f s.process }

def unused : Work Nat := modifyGet fun s => (s.unused, { s with unused := s.unused + 1 })

def outcome (act : Work α) : Work (Except Interrupt α) := fun s =>
  match act s with
  | .ok a s => .ok (.ok a) s
  | .error e s => .ok (.error e) s

def ending (act : Work α) (last : Work Unit) : Work α := do
  match ← outcome act with
  | .ok a => last; return a
  | .error e => last; throw e

def tree : Work Tree := do
  let s ← get
  return { s.tree with present := s.process.present }

/-! ## Files -/

def changeTree (f : Tree → Tree) : Work Unit := modify fun s => { s with tree := f s.tree }

def keepFile (number : Nat) (file : OpenFile) : Work Unit :=
  modify fun s => { s with files := (number, file) :: s.files.filter (·.1 ≠ number) }

def file? (number : Nat) : Work (Option OpenFile) := do
  return ((← get).files.find? (·.1 = number)).map (·.2)

def contents (file : OpenFile) : Work Bytes := do
  match (← get).tree.get? file.location with
  | some ⟨_, .file content _⟩ => return content.bytes
  | _ => return []

def opened (file : OpenFile) : Work Channel := do
  let n ← unused
  keepFile n file
  return .file n

def overlaid (old bytes : Bytes) (offset : Nat) : Bytes :=
  old.take offset ++ List.replicate (offset - old.length) 0 ++ bytes
    ++ old.drop (offset + bytes.length)

def writeFile (number : Nat) (bytes : Bytes) : Work Bool := do
  let some file ← file? number | return false
  if bytes = [] then return true
  unless file.writes do return false
  let old ← contents file
  let offset := if file.appends then old.length else file.offset
  changeTree (·.refill file.location (overlaid old bytes offset))
  keepFile number ({ file with offset := offset }.skip bytes.length)
  return true

/-! ## Output -/

def send (channel : Channel) (bytes : Bytes) : Work Bool :=
  match channel with
  | .stream _ | .gathering _ => do
    modify fun s => if bytes = [] then s else { s with writes := (channel, bytes) :: s.writes }
    return true
  | .file n => writeFile n bytes
  | .source _ => return bytes = []
  | .void => return true

def channel? (descriptor : Nat) : Work (Option Channel) := do
  return ((← process).channels.find? (·.1 = descriptor)).map (·.2)

def write (descriptor : Nat) (bytes : Bytes) : Work Bool := do
  match ← channel? descriptor with
  | some channel => send channel bytes
  | none => return bytes = []

def complain (what : Bytes) : Work Unit := do
  let p ← process
  let colon := Text.encode ": "
  let running := p.running.elim [] (· ++ colon)
  let _ ← write 2 (p.name ++ colon ++ Text.encode (toString p.line) ++ colon ++ running ++ what
    ++ [newline])

def complainText (about : Bytes) (what : String) : Work Unit := complain (about ++ Text.encode what)

def misuse : Nat := 2

def fail (about : Bytes) (what : String) : Work α := do
  complainText about what
  update fun p => { p with status := misuse }
  throw .fails

/-! ## Input -/

def input (descriptor : Nat) : Work Bytes := do
  match ← channel? descriptor with
  | some (.source n) => return (((← get).sources.find? (·.1 = n)).map (·.2)).getD []
  | some (.file n) =>
    let some file ← file? n | return []
    unless file.reads do return []
    return (← contents file).drop file.offset
  | _ => return []

def leave (descriptor : Nat) (rest : Bytes) : Work Unit := do
  match ← channel? descriptor with
  | some (.source n) =>
    modify fun s => { s with sources := (n, rest) :: s.sources.filter (·.1 ≠ n) }
  | some (.file n) =>
    if let some file ← file? n then
      if file.reads then
        keepFile n { file with offset := (← contents file).length - rest.length }
  | _ => return ()

def source (bytes : Bytes) : Work Channel := do
  let n ← unused
  modify fun s => { s with sources := (n, bytes) :: s.sources }
  return .source n

def connect (descriptor : Nat) (channel : Option Channel) : Work Unit :=
  update fun p =>
    { p with
      channels := (channel.toList.map (descriptor, ·)) ++ p.channels.filter (·.1 ≠ descriptor) }

/-! ## Variables -/

def found? (name : Bytes) : Work (Option Variable) := do
  return (← process).store.find? (·.name = name)

def value? (name : Bytes) : Work (Option Bytes) := do return (← found? name).bind (·.value)

def restore (name : Bytes) (found? : Option Variable) : Work Unit :=
  update fun p =>
    { p with store := found?.toList ++ p.store.filter (·.name ≠ name) }

def change (name : Bytes) (f : Variable → Variable) : Work Unit := do
  restore name (some (f ((← found? name).getD ⟨name, none, false, false⟩)))

def assign (name value : Bytes) : Work Unit := do
  if (← found? name).any (·.fixed) then fail name ": is read only"
  let named := (← process).options.contains 0x61
  change name fun v => { v with value := some value, exported := v.exported || named }

def setTrap (condition : Nat) (action : Option Bytes) : Work Unit :=
  update fun p =>
    { p with
      traps := action.toList.map (condition, ·) ++ p.traps.filter (·.1 ≠ condition) }

def option (letter : UInt8) : Work Bool := do return (← process).options.contains letter

end Work

def ofErrno (e : Errno) (missing : String) : String :=
  if e = .notFound ∨ e = .notADirectory then missing else e.title

def Process.inheritedTraps (p : Process) : List (Nat × Bytes) :=
  p.traps.filter fun (condition, action) => condition ≠ 0 ∧ action = []

def Variable.given? (v : Variable) : Option (String × String) :=
  if v.exported then v.value.map fun value => (Text.decode v.name, Text.decode value) else none

def Process.environment (p : Process) : Environment :=
  .ofList (p.store.filterMap (·.given?))

def nameAndValue (bytes : Bytes) : Bytes × Option Bytes :=
  let name := bytes.takeWhile (· != 0x3D)
  (name, if name.length < bytes.length then some (bytes.drop (name.length + 1)) else none)

def Variable.initial (environment : Environment) : List Variable :=
  let text (w : String × String) := nameAndValue (Text.encode (String.ofList (Environment.text w)))
  let received := environment.vars.filterMap fun w =>
    match text w with
    | (name, some value) =>
      if isName name then some (⟨name, some value, true, false⟩ : Variable) else none
    | _ => none
  let own (name value : String) : Variable :=
    let name := Text.encode name
    ⟨name, some (Text.encode value), received.any (·.name = name), false⟩
  let own := [own "IFS" " \t\n", own "OPTIND" "1", own "PS4" "+ "]
  received.reverse.foldl
    (fun vs v => if vs.any (·.name = v.name) then vs else v :: vs) own

end BuildProbe.Shell
