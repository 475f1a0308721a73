import Dashboard.Phrase
import Dashboard.Token

/-!
# Stepping through a text

A cursor is a position in the tokens of a source. It looks at one token at a time, and everything that can
go wrong at a position is reported with the line of the token there or, past the end, of the last token.
A position may lie any distance past the end; nothing more is found there than at the end itself.
-/

namespace Dashboard

/-- A position in the tokens of a source. -/
structure Cursor where
  source : Text
  tokens : List Token
  pos : Nat := 0
deriving DecidableEq, Repr

namespace Cursor

def ofText (source text : Text) : Cursor := { source, tokens := tokenize text }

def atEnd (k : Cursor) : Bool := k.tokens.length ≤ k.pos

/-- The line of a position: of the token there or, past the end, of the last one. -/
def lineAt (k : Cursor) (pos : Nat) : Option Nat :=
  k.tokens[min pos (k.tokens.length - 1)]?.map (·.line)

def line (k : Cursor) : Option Nat := k.lineAt k.pos

/-- The tokens that are left, without their lines. -/
def rest (k : Cursor) : List Text := (k.tokens.drop k.pos).map (·.value)

/-- A fault, reported where the cursor finds it. -/
def diagnose (k : Cursor) (f : Fault) : Diagnostic where
  source := k.source
  line := (k.lineAt (k.pos - f.distance)).map Int.ofNat
  fault := f

def failure (k : Cursor) : Refusal → Failure
  | .fault f => .diagnostic (k.diagnose f)
  | .tooManyDigits count => .tooManyDigits count

/-! ### Looking at a token -/

def current (k : Cursor) : Except Diagnostic Text :=
  match k.tokens[k.pos]? with
  | some token => .ok token.value
  | none => .error (k.diagnose .unexpectedEnd)

def equals (k : Cursor) (value : Text) : Bool := k.tokens[k.pos]?.any (·.value == value)

def expect (k : Cursor) (value : Text) : Except Diagnostic Unit := do
  let got ← k.current
  if got = value then .ok () else .error (k.diagnose (.unexpectedToken value got))

/-- The report that the next token begins nothing here. -/
def unknown (k : Cursor) : Except Diagnostic Diagnostic := do
  let token ← k.current
  return k.diagnose (.unknownToken token)

/-- The number that the next token stands for, if it lies between the bounds. -/
def number (k : Cursor) (what : Text) (least greatest : Int) : Except Failure Int :=
  match k.current with
  | .error d => .error (.diagnostic d)
  | .ok token => (Number.read what least greatest token).mapError k.failure

/-! ### Moving on -/

def advance (k : Cursor) : Cursor := { k with pos := k.pos + 1 }

def take (k : Cursor) : Except Diagnostic (Text × Cursor) := do
  let token ← k.current
  return (token, k.advance)

/-- Moves on if the next token is the given one, and tells whether it was. -/
def equalsAdvance (k : Cursor) (value : Text) : Bool × Cursor :=
  if k.equals value then (true, k.advance) else (false, k)

def expectAdvance (k : Cursor) (value : Text) : Except Diagnostic Cursor := do
  k.expect value
  return k.advance

/-- Moves on in any case, and requires that a token is left. -/
def advanceOrFail (k : Cursor) : Cursor × Except Diagnostic Unit :=
  let next := k.advance
  (next, if next.atEnd then .error (next.diagnose .unexpectedEnd) else .ok ())

/-! ### Reading a phrase -/

/-- Reads a phrase at the cursor. The cursor moves on by the tokens that were taken, also if a token is
refused. -/
def read (k : Cursor) (phrase : Phrase) (c : Configuration) : Cursor × Reading :=
  let reading := phrase.read c k.rest
  ({ k with pos := k.pos + (k.rest.length - reading.rest.length) }, reading)

/-- Why a reading that ended at the cursor stopped early. -/
def failure? (k : Cursor) (reading : Reading) : Option Failure := reading.refusal.map k.failure

end Cursor

end Dashboard
