import BuildProbe.Shell.Expansion
import BuildProbe.Shell.Script
/-!
Where the descriptors of a command lead. A file that is to be written is made or emptied at once,
although nothing may be written to it.
-/
namespace BuildProbe.Shell

open Text (Bytes)
open Work

def openToRead (name : Bytes) : Work Channel := do
  match (← tree).resolve true (Image.path name) with
  | .ok (.at loc _) => opened ⟨loc, 0, true, false, false⟩
  | .ok (.inside _) => source []
  | .error e =>
    Work.fail (Text.encode "cannot open " ++ name) (": " ++ ofErrno e "No such file")

def openToWrite (name : Bytes) (opening : Opening) : Work Channel := do
  let t ← tree
  let p := Image.path name
  if opening = .write ∧ (← option 0x43) then
    if t.isDirectory p then Work.fail (Text.encode "cannot open " ++ name) ": Is a directory"
    if (t.lstat p).toOption.isSome then
      Work.fail (Text.encode "cannot create " ++ name) ": File exists"
  match t.fileAt p Tree.linkLimit with
  | .error e =>
    Work.fail (Text.encode "cannot create " ++ name) (": " ++ ofErrno e "Directory nonexistent")
  | .ok loc =>
    if (t.get? loc).isNone then
      let mode := Tree.openMode &&& (0o777 ^^^ (← process).mask)
      changeTree (·.add loc (.file (.data []) mode))
    else if opening = .write ∨ opening = .overwrite then changeTree (·.refill loc [])
    opened ⟨loc, 0, opening = .update, true, opening = .append⟩

def device? (name : Bytes) : Work (Option (Option Channel)) := do
  match Text.decode name with
  | "/dev/null" => return some (some .void)
  | "/dev/stdin" | "/dev/fd/0" => return some (← channel? 0)
  | "/dev/stdout" | "/dev/fd/1" => return some (← channel? 1)
  | "/dev/stderr" | "/dev/fd/2" => return some (← channel? 2)
  | _ => return none

/-- Opens what a redirection is about. While it does so, its descriptor is closed if no other
before it was about the same one, so that it cannot be told there what is wrong. -/
def redirectTo (first : Bool) (descriptor : Nat) (opening : Opening) (text : Bytes) :
    Work Unit := do
  match opening with
  | .duplicate =>
    if text = [0x2D] then connect descriptor none
    else
      match ← channel? (number text) with
      | some channel => connect descriptor (some channel)
      | none =>
        if first then connect descriptor none
        Work.fail text ": Bad file descriptor"
  | .document _ => connect descriptor (some (← source text))
  | _ =>
    match ← device? text with
    | some channel => connect descriptor channel
    | none =>
      let channel ← if opening = .read then openToRead text else openToWrite text opening
      connect descriptor (some channel)

def redirectionTexts (run : Runner) (redirections : List Redirection) :
    Work (List (Nat × Opening × Bytes)) :=
  redirections.mapM fun (.on descriptor opening word) => do
    match opening with
    | .document number =>
      let documents := (← process).documents
      let word := ((documents.find? (·.number = number)).map (·.word)).getD []
      return (descriptor, opening, Mark.toBytes (← wordMarks (capture run) false word))
    | .duplicate =>
      let text ← single (capture run) word
      unless text = [0x2D] ∨ (text.length = 1 ∧ text.all isDigit) do
        update fun p => { p with line := p.reached }
        Work.fail [] "Syntax error: Bad fd number"
      return (descriptor, opening, text)
    | _ => return (descriptor, opening, ← single (capture run) word)

def openAll (done : List Nat) : List (Nat × Opening × Bytes) → Work Unit
  | [] => return ()
  | (descriptor, opening, text) :: rest => do
    redirectTo (!done.contains descriptor) descriptor opening text
    openAll (descriptor :: done) rest

def redirected (run : Runner) (redirections : List Redirection) (act : Work α) :
    Work (Option α) := do
  let texts ← redirectionTexts run redirections
  let before := (← process).channels
  let own (c : Nat × Channel) : Bool := texts.any (·.1 = c.1)
  ending (do
    match ← outcome (openAll [] texts) with
    | .ok _ => return some (← act)
    | .error .fails => return none
    | .error e => throw e) (update fun p =>
      { p with channels := before.filter own ++ p.channels.filter (!own ·) })

end BuildProbe.Shell
