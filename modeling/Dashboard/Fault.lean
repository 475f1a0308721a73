import Dashboard.Decimal

/-!
# What can be wrong with a configuration

A fault is the cause for which a configuration is refused. A diagnostic is a fault together with the place
where it was found: the name of the source and, where it is known, the line. The first fault ends the
reading, so there is never more than one diagnostic.
-/

namespace Dashboard

inductive Fault where
  | unexpectedEnd
  /-- Another token stands where only one is possible. -/
  | unexpectedToken (expected got : Text)
  /-- A token that begins nothing at its place. -/
  | unknownToken (token : Text)
  /-- A number that is malformed or out of bounds: what it should be, what is wrong with it, how it reads. -/
  | badNumber (what reason got : Text)
  | noServers
  /-- A section that may stand only once stands twice. -/
  | duplicateSection (section_ : Text)
  | unreadable (reason : Text)
  /-- Any other cause, in its own words. -/
  | refused (reason : Text)
deriving DecidableEq, Repr

namespace Fault

def text : Fault → Text
  | unexpectedEnd => "unexpected eof"
  | unexpectedToken expected got => .concat ["expected \"", expected, "\", have \"", got, "\""]
  | unknownToken token => .concat ["unknown token: \"", token, "\""]
  | badNumber what reason got => .concat ["bad ", what, ": ", reason, ": \"", got, "\""]
  | noServers => "no servers in statement"
  | duplicateSection section_ => .concat [section_, " already specified"]
  | unreadable reason => reason
  | refused reason => reason

/-- How many tokens before the next one a fault is found. A section is known to stand twice once the brace
that opens it has been read; every other fault is found at the next token. -/
def distance : Fault → Nat
  | duplicateSection _ => 1
  | _ => 0

end Fault

structure Diagnostic where
  source : Text
  line : Option Int := none
  fault : Fault
deriving DecidableEq, Repr

namespace Diagnostic

/-- The whole message: source, line if there is one, and the wording of the fault. -/
def message (d : Diagnostic) : Text :=
  match d.line with
  | none => .concat [d.source, ": ", d.fault.text]
  | some line => .concat [d.source, ":", Decimal.ofInt line, ": ", d.fault.text]

end Diagnostic

/-- Why a token is not taken: a fault of the configuration, or a numeral of more digits than are converted. -/
inductive Refusal where
  | fault (f : Fault)
  | tooManyDigits (count : Nat)
deriving DecidableEq, Repr

/-- Why reading ended early: a refusal that knows its place. A numeral that is too long to be converted is
no fault of the configuration and has no place. -/
inductive Failure where
  | diagnostic (d : Diagnostic)
  | tooManyDigits (count : Nat)
deriving DecidableEq, Repr

namespace Failure

def tooManyDigitsText (count : Nat) : Text :=
  .concat ["Exceeds the limit (4300 digits) for integer string conversion: value has ",
    Decimal.ofNat count, " digits; use sys.set_int_max_str_digits() to increase the limit"]

def message : Failure → Text
  | diagnostic d => d.message
  | tooManyDigits count => tooManyDigitsText count

end Failure

end Dashboard
