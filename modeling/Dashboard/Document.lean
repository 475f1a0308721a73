import Dashboard.Cursor

/-!
# Reading a configuration text

A text is read statement by statement into a configuration. The first fault ends the reading; what was read
before it stays in the configuration.
-/

namespace Dashboard

/-- What reading a text into a configuration came to: the configuration that results, and the failure that
ended the reading, if one did. -/
structure Outcome where
  config : Configuration
  failure : Option Failure
deriving DecidableEq, Repr

namespace Configuration

def readTokens (c : Configuration) (k : Cursor) : Cursor × Outcome :=
  let (k', reading) := k.read .configuration c
  (k', ⟨reading.config, k'.failure? reading⟩)

def readText (c : Configuration) (source text : Text) : Outcome :=
  (c.readTokens (.ofText source text)).2

/-- The source that messages name for addresses of the command line. -/
def commandLineSource : Text := "command line"

/-- Replaces the servers by the addresses of a command line, none of which may be empty. -/
def ofArguments (c : Configuration) (urls : List Text) : Except Diagnostic Configuration :=
  if [] ∈ urls then
    .error { source := commandLineSource, fault := .refused "empty server address" }
  else .ok (c.withServers urls)

end Configuration

end Dashboard
