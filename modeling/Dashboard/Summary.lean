import Dashboard.Written

/-!
# Summaries for a reader

A summary shows line by line what a configuration comes to: the waiting time that holds for each server, with
a note where it is the global one, and for each box the options in words.
-/

namespace Dashboard

namespace Summary

/-- A name in a column of ten, and what is said of it. -/
def entry (name value : Text) : Text := .concat ["  ", name.padRight 10, "  ", value]

def server (c : Configuration) (s : Server) : Text :=
  .concat ["  - ", s.url, "  every ", Decimal.ofInt (c.waittimeFor s), "s",
    if s.waittime = 0 then " (global)" else ""]

def box (b : Box) : Except WriteError Text := do
  let words ← b.optionKeywords
  return entry b.category.keyword (if words = [] then "-" else Text.join " " words)

def layout : Option Layout → Except WriteError (List Text)
  | none => .ok ["layout:   default"]
  | some l => do
    let boxes ← l.boxes.mapM box
    let count : Text := .concat ["layout:   ", Decimal.ofNat l.boxes.length, " box(es)"]
    let errlog : Text :=
      if l.errlog = 0 then "off" else .concat [Decimal.ofInt l.errlog, " line(s)"]
    return count :: entry "header" (if l.header then "yes" else "no") ::
      entry "errlog" errlog :: boxes

end Summary

namespace Configuration

/-- What a configuration comes to, for a reader. The last line has no line feed. -/
def summary (c : Configuration) : Except WriteError Text := do
  let layout ← Summary.layout c.layout
  let waittime : Text := .concat ["waittime: ", Decimal.ofInt c.waittime, "s"]
  let count : Text := .concat ["servers:  ", Decimal.ofNat c.servers.length]
  return Text.join "\n" (waittime :: count :: c.servers.map (Summary.server c) ++ layout)

end Configuration

end Dashboard
