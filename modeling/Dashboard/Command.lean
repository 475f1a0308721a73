import Dashboard.Arguments
import Dashboard.Load
import Dashboard.Summary

/-!
# The command

The command checks a configuration and shows what the dashboard makes of it: a summary, or with `--dump` the
configuration in its own syntax. It fails if the arguments cannot be used, if no configuration can be loaded,
if there is no server in it, or if it cannot be written.
-/

namespace Dashboard.Command

def usage : Text :=
  "usage: slant-config [-h] [-f PATH] [--dump] [--print-default] [URL ...]\n"

def help : Text := .concat [usage, Text.join "\n" [
  "",
  "Check a slant configuration file.",
  "",
  "positional arguments:",
  "  URL                   Servers to poll, replacing those in the configuration",
  "                        file",
  "",
  "options:",
  "  -h, --help            show this help message and exit",
  "  -f PATH, --config PATH",
  "                        Configuration file (default: ~/.slantrc)",
  "  --dump                Print the effective configuration in configuration",
  "                        syntax",
  "  --print-default       Print a sample configuration and exit",
  ""]]

/-- The report on arguments that cannot be used. Until they are read, stray bytes are escaped. -/
def refuse (e : UsageError) : Report where
  stderr := StrayBytes.escaped.encode
    (.concat [usage, "slant-config: error: ", e.message, "\n"])
  ending := .exit 2 none

def present (c : Configuration) (dump : Bool) : Report :=
  if c.servers = [] then
    { stderr := Report.complaint "no servers configured", ending := .exit 1 none }
  else if dump then
    match c.write with
    | .ok text => .success text
    | .error (.unwritableAddress url) =>
      let e := WriteError.unwritableAddress url
      { stderr := Report.complaint e.message, ending := .exit 1 (some (.unwritable e)) }
    | .error e => .aborted (.foreignOptions e)
  else
    match c.summary with
    | .ok text => .success (.concat [text, "\n"])
    | .error e => .aborted (.foreignOptions e)

/-- The report on the configuration that a file and addresses make up. -/
def check (readFile : Text → FileRead) (path : Text) (urls : List Text) (dump : Bool) : Report :=
  match Configuration.start .kept readFile path urls with
  | .ok c => present c dump
  | .error report => report

def answer (readFile : Text → FileRead) (defaultPath : Text) : Request → Report
  | .help => { stdout := help, ending := .exit 0 none }
  | .proceed a =>
    if a.printDefault then .success Configuration.sample
    else check readFile (a.path.getD defaultPath) a.urls a.dump

def run (bundling : Bundling) (readFile : Text → FileRead) (defaultPath : Text)
    (arguments : List Text) : Report :=
  match Request.ofArguments bundling arguments with
  | .ok request => answer readFile defaultPath request
  | .error e => refuse e

end Dashboard.Command
