import Dashboard.FileTree
import Dashboard.Report
import Dashboard.Text.Newlines

/-!
# Loading a configuration

The configuration comes from a file and from the addresses of the command line. Without the file, the
addresses alone make it up. Where both are given, the addresses replace the servers of the file, and its
layout and waiting time stay.

The file is given by what reading it gives, as a function of its path, so that loading itself is the same for
the files of a disk and for those of a `FileTree`.
-/

namespace Dashboard

inductive LoadError where
  /-- A diagnostic, with what was read of the file if it was read. -/
  | diagnostic (d : Diagnostic) (built : Option Configuration)
  | abort (a : Abort)
deriving DecidableEq, Repr

/-- What becomes of stray bytes on standard error. -/
inductive StrayBytes where
  | kept
  | escaped
deriving DecidableEq, Repr

namespace StrayBytes

def encode : StrayBytes → Text → Text
  | kept, t => t
  | escaped, t => t.escapeStrays

end StrayBytes

namespace Configuration

/-- The configuration of a file, by its path in plain form. -/
def ofContent (path content : Text) : Except LoadError Configuration :=
  let outcome := ({} : Configuration).readText path content.unifyNewlines
  match outcome.failure with
  | none => .ok outcome.config
  | some (.diagnostic d) => .error (.diagnostic d (some outcome.config))
  | some (.tooManyDigits count) => .error (.abort (.tooManyDigits count))

/-- The configuration with its servers replaced by the addresses of a command line. -/
def replaceServers (c : Configuration) (urls : List Text) : Except LoadError Configuration :=
  (c.ofArguments urls).mapError (.diagnostic · none)

/-- The configuration that the file at a path and the addresses of a command line make up. -/
def load (readFile : Text → FileRead) (path : Text) (urls : List Text) :
    Except LoadError Configuration :=
  let path := Path.plain path
  if 0 ∈ path then .error (.abort .zeroByteInPath)
  else match readFile path with
    | .missing => ({} : Configuration).replaceServers urls
    | .unreadable reason =>
      .error (.diagnostic { source := path, fault := .unreadable reason } none)
    | .content content => do
      let c ← ofContent path content
      if urls = [] then return c else c.replaceServers urls

/-- Loads a configuration, or reports why there is none. What was read of the file is released first. -/
def start (strays : StrayBytes) (readFile : Text → FileRead) (path : Text) (urls : List Text) :
    Except Report Configuration :=
  (load readFile path urls).mapError fun
    | .diagnostic d built =>
      { stderr := strays.encode (Report.complaint d.message)
        ending := .exit 1 (some (.diagnostic d (built.map release))) }
    | .abort a => .aborted a

end Configuration

end Dashboard
