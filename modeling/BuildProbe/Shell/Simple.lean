import BuildProbe.Shell.Builtin
import BuildProbe.Shell.Program
import BuildProbe.Shell.Redirection
/-!
Simple commands: words with redirections, and values for variables. The first word is a special
command of the shell's own, else a function, else another of its own, else a program.
-/
namespace BuildProbe.Shell

open Text (Bytes)
open Work

def call (run : Runner) (tested : Bool) (body : Command) (words : List Bytes) : Work Nat := do
  let before ← process
  update fun p => { p with arguments := words, hidden := some [], loops := 0 }
  let body : Work Nat := do
    match ← outcome (run tested body) with
    | .ok status => return status
    | .error .returns => return (← process).status
    | .error e => throw e
  ending body do
    let hidden := (← process).hidden
    (hidden.getD []).forM fun (name, v) => restore name v
    update fun p =>
      { p with arguments := before.arguments, hidden := before.hidden, loops := before.loops }

def runners : List (String × Bool) :=
  [("eval", true), (".", true), ("exec", true), ("command", false), ("type", false)]

def isBuiltin (name : Bytes) : Bool :=
  (builtin? [] name []).isSome || runners.any fun (own, _) => Text.encode own = name

def isSpecial (name : Bytes) : Bool :=
  ((builtin? [] name []).map (·.1)).getD
    (runners.any fun (own, special) => Text.encode own = name && special)

def function? (name : Bytes) : Work (Option Command) := do
  return ((← process).functions.find? (·.1 = name)).map (·.2)

def described (name : Bytes) : Work (Option (Bytes × String)) := do
  let p ← process
  if keywords.contains (Text.decode name) then return some (name, " is a shell keyword")
  if (← function? name).isSome then return some (name, " is a shell function")
  if isSpecial name then return some (name, " is a special shell builtin")
  if isBuiltin name then return some (name, " is a shell builtin")
  let paths := if name.contains 0x2F then [name] else candidates p name
  match located (← tree) .notFound paths with
  | .ok (path :: _) => return some (path, " is " ++ Text.decode path)
  | _ => return none

def type (words : List Bytes) : Work Nat := do
  let mut status := 0
  for word in words do
    match ← described word with
    | some (_, text) => let _ ← write 1 (word ++ Text.encode (text ++ "\n"))
    | none =>
      let _ ← write 1 (word ++ Text.encode ": not found\n")
      status := 127
  return status

def identify (words : List Bytes) : Work Nat := do
  let some word := words.head? | return 0
  match ← described word with
  | some (name, _) =>
    let _ ← write 1 (name ++ [newline])
    return 0
  | none => return 127

def runFound (run : Runner) (words : List Bytes) : Work Nat := do
  let some name := words.head? | return 0
  let p ← process
  let paths := if name.contains 0x2F then [name] else candidates p name
  let t ← tree
  match paths.filter fun path => (t.read (Image.path path)).toOption.isSome with
  | [] =>
    if name.contains 0x2F then Work.fail (Text.encode "cannot open " ++ name) ": No such file"
    Work.fail name ": not found"
  | path :: _ =>
    update fun p => { p with running := some path }
    match ← outcome (runPath run path) with
    | .ok status => return status
    | .error .returns => return (← process).status
    | .error e => throw e

def replace (run : Runner) : List Bytes → Work Nat
  | [] => return 0
  | name :: words => do
    let status ← runExternal run name words true
    let _ ← settle status
    throw .exits

def recovered (act : Work Nat) : Work Nat := do
  match ← outcome act with
  | .error .fails => return misuse
  | .error e => throw e
  | .ok status => return status

def withName (name : Bytes) (act : Work α) : Work α := do
  let before := (← process).running
  update fun p => { p with running := some name }
  ending act (update fun p => { p with running := before })

def runOwn (run : Runner) (tested : Bool) (name : Bytes) (words : List Bytes) : Work Nat :=
  withName name <|
    match builtin? processNumber name words with
    | some (_, act) => act
    | none =>
      match Text.decode name with
      | "eval" => runText (fun _ => run tested) (List.intercalate [0x20] words)
      | "." => do runFound run (← Builtin.options "" words).2
      | "exec" => replace run words
      | "type" => type words
      | _ => return 0

def runPlainly (run : Runner) (tested : Bool) : List Bytes → Work Nat
  | [] => return 0
  | name :: words => do
    unless isBuiltin name do return ← runExternal run name words false
    recovered (runOwn run tested name words)

def runWords (run : Runner) (tested : Bool) : List Bytes → Work Nat
  | [] => return 0
  | name :: words => do
    if isSpecial name then return ← runOwn run tested name words
    match ← function? name with
    | some body => call run tested body words
    | none =>
      if name ≠ Text.encode "command" then return ← runPlainly run tested (name :: words)
      recovered do
        let (options, words) ← withName name (Builtin.options "pvV" words)
        if options.contains 0x76 then identify words
        else if options.contains 0x56 then type (words.take 1)
        else runPlainly run tested words

def isReplacement : List Bytes → Bool
  | [] => false
  | name :: rest =>
    let rest := rest.dropWhile ((["-p", "--"].map Text.encode).contains ·)
    [name] ++ rest == [Text.encode "exec"]
      || [name] ++ rest == ["command", "exec"].map Text.encode

def traced (channel : Option Channel) (words : List Bytes) : Work Unit := do
  if ← option 0x78 then
    let lead := (← value? (Text.encode "PS4")).getD []
    if let some channel := channel then
      let _ ← send channel (lead ++ List.intercalate [0x20] words ++ [newline])

def assignAll (run : Runner) (assignments : List (Bytes × Word)) (exported : Bool) :
    Work (List Bytes) :=
  assignments.mapM fun (name, word) => do
    let value ← single (capture run) word
    assign name value
    if exported then change name ({ · with exported := true })
    return name ++ 0x3D :: value

def commandFields (run : Runner) (words : List Word) : Work (List Bytes) := do
  let marking := ["export", "readonly", "local"].map Text.encode
  match words with
  | first :: rest =>
    let name ← fields (capture run) [first]
    if name.head?.any marking.contains then
      let parts ← rest.mapM fun word => do
        match assignment? word with
        | some _ => return [← single (capture run) word]
        | none => fields (capture run) [word]
      return name ++ parts.flatten
    return name ++ (← fields (capture run) rest)
  | [] => return []

def runSimple (run : Runner) (tested : Bool) (assignments : List (Bytes × Word))
    (words : List Word) (redirections : List Redirection) : Work Nat := do
  update fun p => { p with captured := 0 }
  let words ← commandFields run words
  let special := words.head?.any isSpecial
  let lasting := isReplacement words
  let channel ← channel? 2
  let opened : Work Nat := do
    if lasting then openAll [] (← redirectionTexts run redirections)
    return 0
  let failed ← if special then opened else recovered opened
  if failed ≠ 0 then return failed
  let status ← redirected run (if lasting then [] else redirections) do
    if words.isEmpty ∨ special then
      let given ← assignAll run assignments false
      traced channel (given ++ words)
      if words.isEmpty then return (← process).captured
      runWords run tested words
    else
      let before ← assignments.mapM fun (name, _) => do return (name, ← found? name)
      ending (do
        let given ← assignAll run assignments true
        traced channel (given ++ words)
        runWords run tested words) (before.reverse.forM fun (name, v) => restore name v)
  match status with
  | some status => return status
  | none =>
    if special then throw .fails
    return misuse

end BuildProbe.Shell
