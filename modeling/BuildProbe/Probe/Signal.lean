/-!
Signals: the numbers and names of those that end a process unless it sees to them, with what is
said of a process that one of them has ended, and of those that do not.
-/
namespace BuildProbe.Signal

def all : List (Nat × String × String) :=
  [(1, "HUP", "Hangup"), (2, "INT", "Interrupt"), (3, "QUIT", "Quit"),
    (4, "ILL", "Illegal instruction"), (5, "TRAP", "Trace/breakpoint trap"), (6, "ABRT", "Aborted"),
    (7, "BUS", "Bus error"), (8, "FPE", "Floating point exception"), (9, "KILL", "Killed"),
    (10, "USR1", "User defined signal 1"), (11, "SEGV", "Segmentation fault"),
    (12, "USR2", "User defined signal 2"), (13, "PIPE", "Broken pipe"), (14, "ALRM", "Alarm clock"),
    (15, "TERM", "Terminated"), (16, "STKFLT", "Stack fault"),
    (24, "XCPU", "CPU time limit exceeded"), (25, "XFSZ", "File size limit exceeded"),
    (26, "VTALRM", "Virtual timer expired"), (27, "PROF", "Profiling timer expired"),
    (29, "IO", "I/O possible"), (30, "PWR", "Power failure"), (31, "SYS", "Bad system call")]

def stopping : List (Nat × String) := [(19, "STOP"), (20, "TSTP"), (21, "TTIN"), (22, "TTOU")]

def idle : List (Nat × String) := [(17, "CHLD"), (18, "CONT"), (23, "URG"), (28, "WINCH")]

def names : List (Nat × String) := all.map (fun (n, name, _) => (n, name)) ++ stopping ++ idle

def ofName? (name : String) : Option Nat :=
  (names.find? fun (_, own) => own = name ∨ "SIG" ++ own = name).map (·.1)

def title (signal : Nat) : String :=
  ((all.find? (·.1 = signal)).map (·.2.2)).getD ("Unknown signal " ++ toString signal)

end BuildProbe.Signal
