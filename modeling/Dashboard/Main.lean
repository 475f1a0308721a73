import Dashboard.Command

/-!
# The command line

The outermost layer: it reads the one file that the arguments ask for, runs the command on what reading it
gave, and writes the report to the standard streams.
-/

namespace Dashboard.Main

/-- Why a file could not be read, by the number of the error, which some calls of the system negate. -/
def ofErrorCode (code : UInt32) (details : String) : FileRead :=
  match min code (0 - code) with
  | 20 => .notDirectory
  | 21 => .isDirectory
  | 36 => .nameTooLong
  | 40 => .tooManyLinks
  | _ => .unreadable (.ofString details)

def ofError : IO.Error → FileRead
  | .noFileOrDirectory .. => .missing
  | .inappropriateType _ code details | .invalidArgument _ code details
  | .permissionDenied _ code details | .resourceExhausted _ code details
  | .otherError code details => ofErrorCode code details
  | e => .unreadable (.ofString e.toString)

def readFile (path : Text) : IO FileRead := do
  match String.fromUTF8? ⟨path.toArray⟩ with
  | none => return .unreadable "Invalid or incomplete multibyte or wide character"
  | some name =>
    try
      let bytes ← IO.FS.readBinFile name
      return .content bytes.data.toList
    catch e => return ofError e

/-- The file that a request reads, if it reads one. -/
def fileOf (defaultPath : Text) : Request → Option Text
  | .help => none
  | .proceed a => if a.printDefault then none else some (Path.plain (a.path.getD defaultPath))

def write (stream : IO.FS.Stream) (t : Text) : IO Unit := do
  stream.write ⟨t.toArray⟩
  stream.flush

def run (arguments : List Text) : IO Report := do
  let home := (← IO.getEnv "HOME").getD ""
  let defaultPath : Text := .ofString (home ++ "/.slantrc")
  match Request.ofArguments .front arguments with
  | .error e => return Command.refuse e
  | .ok request =>
    let content ← match fileOf defaultPath request with
      | some path => if 0 ∈ path then pure .missing else readFile path
      | none => pure .missing
    return Command.answer (fun _ => content) defaultPath request

end Dashboard.Main

/-- Runs the command with the arguments of the process; its status tells how the run ended. -/
def main (arguments : List String) : IO UInt32 := do
  let report ← Dashboard.Main.run (arguments.map Dashboard.Text.ofString)
  Dashboard.Main.write (← IO.getStdout) report.stdout
  Dashboard.Main.write (← IO.getStderr) report.stderr
  if let .abort a := report.ending then
    Dashboard.Main.write (← IO.getStderr) (a.message ++ Dashboard.Text.ofString "\n")
  return report.ending.status.toUInt32
