import Dashboard.Box

/-!
# Configurations

What a configuration says: how often servers are polled, which servers there are, and how the screen is
arranged. A configuration grows statement by statement; the operations here are the only ways in which it
changes.
-/

namespace Dashboard

structure Server where
  url : Text
  /-- Seconds between two polls of this server; with 0 the global waiting time holds. -/
  waittime : Int := 0
deriving DecidableEq, Repr

/-- A configuration. Before anything is read it polls every minute, has no server and leaves the layout to
the program. -/
structure Configuration where
  /-- Seconds between two polls of a server that has no waiting time of its own. -/
  waittime : Int := 60
  servers : List Server := []
  layout : Option Layout := none
deriving DecidableEq, Repr

namespace Configuration

/-- Adds a server without a waiting time of its own. -/
def addServer (c : Configuration) (url : Text) : Configuration :=
  { c with servers := c.servers ++ [{ url }] }

def withServers (c : Configuration) (urls : List Text) : Configuration :=
  { c with servers := urls.map fun url => { url } }

/-- The index of the first of the last `count` servers of `length`. A negative index counts from the end
again, and never reaches further back than the first server. -/
def firstOfLast (length : Nat) (count : Int) : Nat :=
  let start : Int := length - count
  if start < 0 then (length + start).toNat else start.toNat

/-- Gives the last `count` servers a waiting time of their own. -/
def setLastWaittimes (c : Configuration) (count : Int) (waittime : Int) : Configuration :=
  let first := firstOfLast c.servers.length count
  { c with servers :=
      c.servers.take first ++ (c.servers.drop first).map fun s => { s with waittime } }

def modifyLayout (c : Configuration) (f : Layout → Layout) : Configuration :=
  { c with layout := c.layout.map f }

/-- Drops the servers and the layout; the global waiting time stays. -/
def release (c : Configuration) : Configuration := { c with servers := [], layout := none }

/-- Seconds between two polls of a server: its own waiting time, else the global one. -/
def waittimeFor (c : Configuration) (s : Server) : Int :=
  if s.waittime = 0 then c.waittime else s.waittime

/-- Configurations are the same if they agree field by field, their layouts by `Layout.same`. -/
def same (a b : Configuration) : Bool :=
  a.waittime == b.waittime && a.servers == b.servers &&
    match a.layout, b.layout with
    | none, none => true
    | some x, some y => x.same y
    | _, _ => false

end Configuration

end Dashboard
