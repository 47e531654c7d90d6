import BuildProbe.Command.Style
/-!
The command's arguments. They are read one word at a time. The value of an option is attached to
it or is the next word; it is looked at when the next option comes, or when nothing else does. An
option that is not given takes its value from a variable of the environment, and the target has
a default besides.
-/
namespace BuildProbe.Command

inductive Format where
  | text
  | json
  deriving DecidableEq, Repr

def Format.name : Format → String
  | .text => "text"
  | .json => "json"

def Format.all : List Format := [.text, .json]

def Format.ofName? (s : String) : Option Format := all.find? (·.name = s)

inductive Key where
  | probe
  | output
  | target
  | env
  | report
  deriving DecidableEq, Repr

namespace Key

def all : List Key := [probe, output, target, env, report]

def long : Key → String
  | probe => "probe"
  | output => "output"
  | target => "target"
  | env => "env"
  | report => "report"

def ofLong? (s : String) : Option Key := all.find? (·.long = s)

def value : Key → String
  | probe => "PROBE"
  | output => "OUTPUT"
  | target => "TARGET"
  | env => "KEY=VALUE"
  | report => "REPORT"

def usage (k : Key) : String := "--" ++ k.long ++ " <" ++ k.value ++ ">"

def standIn? : Key → Option String
  | probe => some "CFGPROBE_PROBE"
  | output => some "CFGPROBE_OUTPUT"
  | target => some "CFGPROBE_TARGET"
  | env | report => none

def fromEnvironment? (k : Key) (environment : Environment) : Option String := do
  environment.seen? (← k.standIn?)

end Key

inductive Misuse where
  | unexpected (word : String)
  | withoutValue (k : Key)
  | repeated (k : Key)
  | notAVariable (value : String)
  | notAFormat (value : String)
  | needlessValue (flag value : String)
  | missing (ks : List Key)
  deriving DecidableEq, Repr

namespace Misuse

def choices : String :=
  "\n  [possible values: " ++ ", ".intercalate (Format.all.map (valid ·.name)) ++ "]"

def noValue (k : Key) : String :=
  "a value is required for '" ++ invalid k.usage ++ "' but none was supplied"
    ++ if k = .report then choices else ""

def badValue (k : Key) (value : String) : String :=
  "invalid value '" ++ invalid value ++ "' for '" ++ literal k.usage ++ "'"

def message : Misuse → String
  | unexpected word => "unexpected argument '" ++ invalid word ++ "' found"
  | withoutValue k => noValue k
  | repeated k => "the argument '" ++ invalid k.usage ++ "' cannot be used multiple times"
  | notAVariable value =>
    badValue .env value ++ ": " ++
      if value.toList.contains '=' then "empty variable name in '" ++ value ++ "'"
      else "expected KEY=VALUE, got '" ++ value ++ "'"
  | notAFormat value =>
    if value = "" then noValue .report else badValue .report value ++ choices
  | needlessValue flag value =>
    "unexpected value '" ++ invalid value ++ "' for '" ++ literal flag
      ++ "' found; no more were expected"
  | missing ks =>
    "the following required arguments were not provided:"
      ++ String.join (ks.map fun k => "\n  " ++ valid k.usage)

def advice : String := "\n\nFor more information, try '" ++ literal "--help" ++ "'.\n"

def paragraph : List Char → List Char
  | [] => []
  | '\n' :: '\n' :: _ => []
  | c :: cs => c :: paragraph cs

def text (m : Misuse) (colour : Bool) : String :=
  String.ofList
    (paragraph (display colour (alarm "error:" ++ " " ++ m.message ++ advice)).toList)

end Misuse

inductive Halt where
  | help
  | version
  | misuse (m : Misuse)
  deriving DecidableEq, Repr

structure Arguments where
  probe : String
  output : String
  target : String
  env : List (String × String)
  report : Format
  deriving DecidableEq, Repr

structure Given where
  probe : Option String
  output : Option String
  target : Option String
  env : List (String × String)
  report : Option Format
  deriving DecidableEq, Repr

namespace Given

def nothing : Given := ⟨none, none, none, [], none⟩

def assignment? (s : String) : Option (String × String) :=
  match s.toList.takeWhile (· != '='), s.toList.dropWhile (· != '=') with
  | c :: name, _ :: value => some (String.ofList (c :: name), String.ofList value)
  | _, _ => none

def once (k : Key) (old : Option α) (new : α) : Except Misuse (Option α) :=
  if old.isSome then .error (.repeated k) else .ok (some new)

def add (g : Given) (k : Key) (value : String) : Except Misuse Given :=
  match k with
  | .probe => do return { g with probe := ← once k g.probe value }
  | .output => do return { g with output := ← once k g.output value }
  | .target => do return { g with target := ← once k g.target value }
  | .env =>
    match assignment? value with
    | some w => .ok { g with env := g.env ++ [w] }
    | none => .error (.notAVariable value)
  | .report =>
    if g.report.isSome then .error (.repeated k)
    else match Format.ofName? value with
      | some f => .ok { g with report := some f }
      | none => .error (.notAFormat value)

def complete (g : Given) (environment : Environment) : Except Misuse Arguments :=
  let probe := g.probe.or (Key.fromEnvironment? .probe environment)
  let output := g.output.or (Key.fromEnvironment? .output environment)
  let target := g.target.or (Key.fromEnvironment? .target environment)
  match probe, output with
  | some probe, some output => .ok ⟨probe, output, target.getD "", g.env, g.report.getD .text⟩
  | some _, none => .error (.missing [.output])
  | none, some _ => .error (.missing [.probe])
  | none, none => .error (.missing [.probe, .output])

end Given

inductive Word where
  | bar
  | long (name : String) (attached : Option String)
  | short (letters : List Char)
  | plain
  deriving DecidableEq, Repr

def Word.of (s : String) : Word :=
  match s.toList with
  | ['-', '-'] => .bar
  | '-' :: '-' :: cs =>
    match cs.dropWhile (· != '=') with
    | [] => .long (String.ofList cs) none
    | _ :: value => .long (String.ofList (cs.takeWhile (· != '='))) (some (String.ofList value))
  | '-' :: c :: cs => .short (c :: cs)
  | _ => .plain

/-- Where the reading of arguments stands: an option that was opened is pending with the value
it has by then, and behind a bar no word is an option. -/
structure Reading where
  given : Given
  pending : Option (Key × Option String)
  barred : Bool
  deriving DecidableEq, Repr

namespace Reading

def start : Reading := ⟨.nothing, none, false⟩

def refuse (m : Misuse) : Except Halt α := .error (.misuse m)

def settle (r : Reading) : Except Halt Given :=
  match r.pending with
  | none => .ok r.given
  | some (k, none) => refuse (.withoutValue k)
  | some (k, some value) => (r.given.add k value).mapError .misuse

def enter (r : Reading) (k : Key) (attached : Option String) : Except Halt Reading := do
  let given ← r.settle
  match attached with
  | none => return { r with given := given, pending := some (k, none) }
  | some value => return { r with given := ← (given.add k value).mapError .misuse, pending := none }

def stop (r : Reading) (halt : Halt) : Except Halt Reading := do
  let _ ← r.settle
  throw halt

def long (r : Reading) (name : String) (attached : Option String) : Except Halt Reading :=
  match Key.ofLong? name with
  | some k => r.enter k attached
  | none =>
    if name = "help" ∨ name = "version" then
      match attached with
      | some value => refuse (.needlessValue ("--" ++ name) value)
      | none => r.stop (if name = "help" then .help else .version)
    else refuse (.unexpected ("--" ++ name))

def short (r : Reading) (letters : List Char) : Except Halt Reading :=
  match letters with
  | [] => .ok r
  | 'o' :: [] => r.enter .output none
  | 'o' :: '=' :: value => r.enter .output (some (String.ofList value))
  | 'o' :: value => r.enter .output (some (String.ofList value))
  | 'h' :: _ => r.stop .help
  | 'V' :: _ => r.stop .version
  | c :: _ => refuse (.unexpected (String.ofList ['-', c]))

def word (r : Reading) (s : String) : Except Halt Reading :=
  if r.barred then refuse (.unexpected s)
  else match Word.of s with
    | .bar => .ok { r with barred := true }
    | .long name attached => r.long name attached
    | .short letters => r.short letters
    | .plain =>
      match r.pending with
      | some (k, none) => .ok { r with pending := some (k, some s) }
      | _ => refuse (.unexpected s)

def words (r : Reading) : List String → Except Halt Reading
  | [] => .ok r
  | s :: rest => do (← r.word s).words rest

end Reading

namespace Arguments

def parse (environment : Environment) (args : List String) : Except Halt Arguments := do
  let given ← (← Reading.start.words args).settle
  (given.complete environment).mapError .misuse

end Arguments
end BuildProbe.Command
