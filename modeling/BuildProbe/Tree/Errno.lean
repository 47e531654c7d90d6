/-!
Why a call is refused: by the system, which gives a number, or before it gets there, because of
a NUL in a text that the system would read only up to it.
-/
namespace BuildProbe

inductive Errno where
  | notFound
  | tooMuchGiven
  | execFormat
  | permissionDenied
  | busy
  | alreadyExists
  | notADirectory
  | isADirectory
  | invalidArgument
  | nameTooLong
  | tooManyLinks
  | other (number : Nat) (title : String)
  deriving DecidableEq, Repr

namespace Errno

def number : Errno → Nat
  | .notFound => 2
  | .tooMuchGiven => 7
  | .execFormat => 8
  | .permissionDenied => 13
  | .busy => 16
  | .alreadyExists => 17
  | .notADirectory => 20
  | .isADirectory => 21
  | .invalidArgument => 22
  | .nameTooLong => 36
  | .tooManyLinks => 40
  | .other number _ => number

def title : Errno → String
  | .notFound => "No such file or directory"
  | .tooMuchGiven => "Argument list too long"
  | .execFormat => "Exec format error"
  | .permissionDenied => "Permission denied"
  | .busy => "Device or resource busy"
  | .alreadyExists => "File exists"
  | .notADirectory => "Not a directory"
  | .isADirectory => "Is a directory"
  | .invalidArgument => "Invalid argument"
  | .nameTooLong => "File name too long"
  | .tooManyLinks => "Too many levels of symbolic links"
  | .other _ title => title

def message (e : Errno) : String := e.title ++ " (os error " ++ toString e.number ++ ")"

end Errno

inductive Refusal where
  | system (errno : Errno)
  | nulInName
  | nulInData
  deriving DecidableEq, Repr

def Refusal.message : Refusal → String
  | .system errno => errno.message
  | .nulInName => "file name contained an unexpected NUL byte"
  | .nulInData => "nul byte found in provided data"

end BuildProbe
