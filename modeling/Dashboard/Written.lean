import Dashboard.Document
import Dashboard.Text.Quoted

/-!
# Writing a configuration

A configuration is written in its own syntax: the global waiting time first, then the servers, in one
statement for each run of neighbours with the same waiting time, then the layout. Whatever has its default
value inside the layout is left out. An address that would not be read back as itself cannot be written, and
neither can options that are not of the family that their category's words choose from.
-/

namespace Dashboard

inductive WriteError where
  /-- An address that is not a single token, or that ends a list of addresses. -/
  | unwritableAddress (url : Text)
  /-- Options of another family than the words of their category. -/
  | foreignOptions (expected got : OptionKind)
deriving DecidableEq, Repr

namespace WriteError

def message : WriteError → Text
  | unwritableAddress url => .concat ["cannot write server address ", url.quoted]
  | foreignOptions expected got =>
    .concat ["unsupported operand type(s) for 'in': '", expected.name, "' and '", got.name, "'"]

end WriteError

namespace Server

/-- Whether the address of a server is read back as itself. -/
def isWritable (s : Server) : Bool :=
  s.url.isWord && s.url != Keyword.semicolon && s.url != Keyword.openBrace

/-- The servers in runs of neighbours with the same waiting time. -/
def runs (servers : List Server) : List (List Server) :=
  servers.splitBy fun a b => a.waittime == b.waittime

/-- The statement for a run of servers with the given waiting time. -/
def statement (waittime : Int) (run : List Server) : Text :=
  let urls := Text.join " " (run.map (·.url))
  if waittime = 0 then .concat ["servers ", urls, " ;"]
  else .concat ["servers ", urls, " \x7b waittime ", Decimal.ofInt waittime, " ; \x7d ;"]

/-- The statements for all servers, if every address can be written. -/
def statements (servers : List Server) : Except WriteError (List Text) :=
  match servers.find? (!·.isWritable) with
  | some s => .error (.unwritableAddress s.url)
  | none => .ok ((runs servers).filterMap fun run =>
      run.head?.map fun first => statement first.waittime run)

end Server

namespace Box

def optionKeywords (b : Box) : Except WriteError (List Text) :=
  match b.category.optionKeywords? b.options with
  | some words => .ok words
  | none => .error (.foreignOptions b.category.optionKind b.options.kind)

def definition (b : Box) : Except WriteError Text := do
  let words ← b.optionKeywords
  return .concat ["    ", Text.join " " (b.category.keyword :: words), " ;"]

end Box

namespace Layout

/-- The block that holds the definitions of the boxes, if there are any. -/
def boxesBlock (definitions : List Text) : List Text :=
  let opening : Text := "  host \x7b"
  let closing : Text := "  \x7d ;"
  if definitions = [] then [] else opening :: definitions ++ [closing]

/-- The lines of a layout statement around the definitions of its boxes. -/
def lines (l : Layout) (definitions : List Text) : List Text :=
  let opening : Text := "layout \x7b"
  let closing : Text := "\x7d ;"
  let header : List Text := if l.header then ["  header ;"] else []
  let errlog : List Text :=
    if l.errlog = 0 then [] else [.concat ["  errlog ", Decimal.ofInt l.errlog, " ;"]]
  opening :: header ++ errlog ++ boxesBlock definitions ++ [closing]

def statement (l : Layout) : Except WriteError (List Text) := do
  return l.lines (← l.boxes.mapM Box.definition)

end Layout

namespace Configuration

def write (c : Configuration) : Except WriteError Text := do
  let servers ← Server.statements c.servers
  let layout ← match c.layout with
    | none => pure []
    | some l => l.statement
  let lines := .concat ["waittime ", Decimal.ofInt c.waittime, " ;"] :: servers ++ layout
  return Text.join "\n" lines ++ Text.ofString "\n"

/-- The source that messages name for a text that was just written. -/
def writtenSource : Text := "dump"

/-- What reading the written configuration into a fresh one comes to. -/
def readBack (c : Configuration) : Except WriteError Outcome := do
  let text ← c.write
  return ({} : Configuration).readText writtenSource text

def sample : Text := Text.join "\n" [
  "waittime 60 ;",
  "servers https://localhost/cgi-bin/slant-collectd ;",
  "layout \x7b",
  "  header ;",
  "  errlog 5 ;",
  "  host \x7b",
  "    cpu qmin_bars hour day ;",
  "    mem qmin_bars hour day ;",
  "    net qmin hour ;",
  "    disc qmin hour ;",
  "    nprocs hour ;",
  "    link ip state access ;",
  "    host ;",
  "  \x7d ;",
  "\x7d ;",
  ""]

end Configuration

end Dashboard
