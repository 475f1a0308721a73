import Dashboard.Written

/-!
# Reports of a run

What a run leaves behind: what it wrote to standard output and to standard error, and how it ended.
-/

namespace Dashboard

/-- Why a run ends without a status of its own. -/
inductive Abort where
  | tooManyDigits (count : Nat)
  /-- A path with a zero byte in it, which names no file. -/
  | zeroByteInPath
  /-- Options in a configuration that has no words for them. -/
  | foreignOptions (e : WriteError)
deriving DecidableEq, Repr

namespace Abort

def message : Abort → Text
  | tooManyDigits count => Failure.tooManyDigitsText count
  | zeroByteInPath => "embedded null byte"
  | foreignOptions e => e.message

end Abort

inductive Cause where
  /-- A diagnostic, with what is left of the configuration that was being read. -/
  | diagnostic (d : Diagnostic) (built : Option Configuration)
  | unwritable (e : WriteError)
deriving DecidableEq, Repr

inductive Ending where
  /-- It did all that was asked for. -/
  | finished
  /-- It stopped with a status before its end, for a cause if there is one to name. -/
  | exit (status : Nat) (cause : Option Cause)
  | abort (a : Abort)
deriving DecidableEq, Repr

namespace Ending

def status : Ending → Nat
  | finished => 0
  | exit status _ => status
  | abort _ => 1

end Ending

structure Report where
  stdout : Text := []
  stderr : Text := []
  ending : Ending
deriving DecidableEq, Repr

namespace Report

/-- The line that tells a reader why a run failed. -/
def complaint (message : Text) : Text := .concat ["slant: ", message, "\n"]

def success (stdout : Text) : Report := { stdout, ending := .finished }

def aborted (a : Abort) : Report := { ending := .abort a }

end Report

end Dashboard
