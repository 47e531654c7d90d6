import BuildProbe.Probe.Launch
import BuildProbe.Shell.Simple
/-!
Running commands, and whole scripts. A script that outlasts one's patience is taken for one that
stays until it is made to end, and so is one whose commands are nested too deeply.
-/
namespace BuildProbe.Shell

open Text (Bytes)
open Work

def round (act : Work Nat) : Work (Option Nat) := do
  match ← outcome act with
  | .ok status => return some status
  | .error (.leaves n) => if n ≤ 1 then return none else throw (.leaves (n - 1))
  | .error (.repeats n) => if n ≤ 1 then return some 0 else throw (.repeats (n - 1))
  | .error e => throw e

def inLoop (act : Work α) : Work α := do
  let loops := (← process).loops
  update fun p => { p with loops := loops + 1 }
  ending act (update fun p => { p with loops := loops })

def repeatWhile (test : Work Bool) (body : Work Nat) (status : Nat) : (limit : Nat) → Work Nat
  | 0 => throw endless
  | limit + 1 => do
    let one : Work Nat := do if ← test then body else throw (.leaves 0)
    match ← outcome one with
    | .ok status => repeatWhile test body status limit
    | .error (.leaves 0) => return status
    | .error e =>
      match ← round (throw e) with
      | some status => repeatWhile test body status limit
      | none => return 0

def repeatEach (name : Bytes) (body : Work Nat) (status : Nat) : List Bytes → Work Nat
  | [] => return status
  | value :: rest => do
    assign name value
    match ← round body with
    | some status => repeatEach name body status rest
    | none => return 0

def branchFor (run : Runner) (text : Bytes) :
    List (List Word × Command) → Work (Option Command)
  | [] => return none
  | (patterns, body) :: rest => do
    for word in patterns do
      if Pattern.accepts (← pattern (capture run) word) text then return some body
    branchFor run text rest

def runPipeline (run : Runner) (tested : Bool) (input : Option Channel) :
    List Command → Work Nat
  | [] => return 0
  | [command] => apart run do
    if let some channel := input then connect 0 (some channel)
    run tested command
  | command :: rest => do
    let (text, _) ← gathered fun channel => apart run do
      if let some channel := input then connect 0 (some channel)
      connect 1 (some channel)
      run tested command
    runPipeline run tested (some (← source text)) rest

def answerSignals (run : Runner) : Work Unit := do
  let p ← process
  unless p.caught = [] do
    update fun p => { p with caught := [] }
    for signal in p.caught do
      if let some (_, action) := p.traps.find? (·.1 = signal) then
        let _ ← runText run action
    let _ ← settle p.status

def checked (run : Runner) (tested : Bool) (act : Work Nat) : Work Nat := do
  let status ← settle (← act)
  answerSignals run
  if status ≠ 0 ∧ !tested then
    if ← option 0x65 then throw .exits
  return status

def atLine (line : Nat) : Work Unit := update fun p => { p with line := line }

def execute (run : Runner) (tested : Bool) : Command → Work Nat
  | .nothing => return 0
  | .simple line assignments words redirections => checked run tested do
    atLine line
    runSimple run tested assignments words redirections
  | .pipeline commands => checked run tested (runPipeline run tested none commands)
  | .background command => checked run tested do
    let _ ← apart run do
      connect 0 (some .void)
      run false command
    return 0
  | .negation command => do
    let status ← run true command
    settle (if status = 0 then 1 else 0)
  | .both first second => do
    let status ← run true first
    if status = 0 then run tested second else return status
  | .either first second => do
    let status ← run true first
    if status = 0 then return status else run tested second
  | .sequence first second => do
    let _ ← run tested first
    run tested second
  | .subshell line body redirections => checked run tested do
    atLine line
    let texts ← redirectionTexts run redirections
    apart run do
      openAll [] texts
      run tested body
  | .redirected line body redirections => do
    atLine line
    settle ((← redirected run redirections (run tested body)).getD misuse)
  | .choice test body other => do
    if (← run true test) = 0 then run tested body
    else
      match other with
      | .nothing => settle 0
      | _ => run tested other
  | .loop inverted test body => do
    let test : Work Bool := do return ((← run true test) = 0) != inverted
    settle (← inLoop (repeatWhile test (run tested body) 0 (← get).patience))
  | .each line name words body => do
    atLine line
    let values ← fields (capture run) words
    settle (← inLoop (repeatEach name (run tested body) 0 values))
  | .select line word branches => do
    atLine line
    let text ← single (capture run) word
    match ← branchFor run text branches with
    | some body => settle (← run tested body)
    | none => settle 0
  | .define name body => do
    update fun p =>
      { p with functions := (name, body) :: p.functions.filter (·.1 ≠ name) }
    settle 0

def runner : (depth : Nat) → Runner
  | 0 => fun _ _ => throw endless
  | depth + 1 => fun tested command => do
    if ← option 0x6E then return 0
    execute (runner depth) tested command

/-! ## Whole scripts -/

def Session.begin (patience : Nat) (t : Tree) (name : Bytes) (environment : Environment) :
    Session :=
  { process :=
      { name := name, arguments := []
        store := Variable.initial environment, hidden := none, functions := []
        channels := [(0, .void), (1, .stream .out), (2, .stream .err)], options := []
        status := 0, captured := 0, line := 1, reached := 1, running := none, loops := 0
        traps := [], caught := [], documents := [], present := t.present, mask := 0o022 }
    tree := t, writes := [], late := [], sources := [], files := [], unused := 0
    patience := patience }

def Interrupt.ending (status : Nat) : Interrupt → Ending
  | .stays hang => .hangs hang
  | .dies signal => .dies signal
  | _ => .exits (.ofNat status)

def writeLate : Work Unit := do
  for (channel, bytes) in (← get).late do
    if let .file number := channel then
      let _ ← writeFile number bytes

def Session.settled (s : Session) : Session :=
  match writeLate s with
  | .ok _ s | .error _ s => s

def chunks (writes : List (Channel × Bytes)) : List Chunk :=
  writes.filterMap fun
    | (.stream stream, bytes) => some ⟨stream, bytes⟩
    | _ => none

def Session.performance (s : Session) (ending : Ending) : Performance :=
  let late := chunks s.late
  ⟨⟨chunks s.writes.reverse, if late.isEmpty then none else some late, ending⟩, s.settled.tree⟩

def perform (patience : Nat) (t : Tree) (path : Bytes) (environment : Environment) : Performance :=
  let run := runner depthLimit
  match finish run (runPath run path) (.begin patience t path environment) with
  | .ok status s => s.performance (.exits (.ofNat status))
  | .error interrupt s => s.performance (interrupt.ending s.process.status)

def conduct (patience : Nat) : Conduct := .direct (perform patience)

end BuildProbe.Shell
