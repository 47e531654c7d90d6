import BuildProbe.Command.Report
import BuildProbe.Command.Usage
import BuildProbe.Event.Filter
import BuildProbe.World.Services
/-!
The command: arguments to one run of the pipeline, and the run to an exit status and what is
printed. The status is 0 when the run succeeded or nothing but information was asked for, 1 when
the run failed, and 2 when the arguments were refused. It is 101 when the command broke off
because it could not take its log filter apart.
-/
namespace BuildProbe.Command

def defaultHome : String := "/root"

def home (environment : Environment) : String :=
  match environment.seen? "HOME" with
  | some s => if s = "" then defaultHome else s
  | none => defaultHome

def expand (environment : Environment) (path : String) : String :=
  match path.toList with
  | ['~'] => home environment
  | '~' :: '/' :: rest => home environment ++ String.ofList ('/' :: rest)
  | _ => path

def Arguments.invocation (a : Arguments) (environment : Environment) : Invocation :=
  let start := Invocation.new (expand environment a.probe)
  (start.withVariable targetVariable a.target).withVariables a.env

def Arguments.request (a : Arguments) (environment : Environment) : Request :=
  ⟨a.invocation environment, .ofText (expand environment a.output)⟩

inductive Conclusion where
  | halted (h : Halt)
  | broken
  | ran (request : Request) (format : Format) (result : Option (Except RunFailure Report))
    (told : List Event)

def withInterrupt (told : List Event) : List Event :=
  told.flatMap fun e => if e = .terminating then [.interrupted, e] else [e]

def interruptPlan (interrupt : Bool) (stuck : Option Moment) : Plan :=
  if interrupt ∧ stuck = some .running then .whenBlocked .signal else .never

def run (w : World) (args : List String) (interrupt : Bool) : Conclusion × World :=
  match Arguments.parse w.environment args with
  | .error h => (.halted h, w)
  | .ok a =>
    if (Filter.ofEnvironment? w.environment).isNone then (.broken, w)
    else
      let request := a.request w.environment
      let (run, w) := w.run request (interruptPlan interrupt (w.stuck? request.invocation))
      (.ran request a.report run.result? (.starting :: withInterrupt run.told), w)

namespace Conclusion

def status : Conclusion → Nat
  | halted (.misuse _) => 2
  | ran _ _ (some (.ok _)) _ => 0
  | ran .. => 1
  | halted _ => 0
  | broken => 101

def stdout (e : Conclusion) (environment : Environment) : String :=
  match e with
  | halted .help => display (colouredHelp environment) (help environment)
  | halted .version => versionLine
  | ran _ format (some (.ok report)) _ => reportText (coloured environment) format report
  | _ => ""

def stderr (e : Conclusion) (environment : Environment) : String :=
  match e with
  | halted (.misuse m) => m.text (colouredHelp environment)
  | ran request _ (some (.error f)) _ => failureText request.probe f
  | _ => ""

def formatVariable : String := "CFGPROBE_LOG_FORMAT"

def logged (e : Conclusion) (environment : Environment) : List Event :=
  match e with
  | ran _ _ _ told =>
    if environment.seen? formatVariable = some "json" then
      told.filter fun e => (Filter.ofEnvironment? environment).any (·.shows e)
    else []
  | _ => []

end Conclusion
end BuildProbe.Command
