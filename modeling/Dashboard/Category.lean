import Dashboard.Text

/-!
# Categories of boxes and their options

A box on the screen shows one category of measurements. How it shows them is a set of options, and which
options there are depends on the category: sampled quantities have views over time, a link has properties,
and the host box has a single option that it always carries. An option set remembers which of the three
families of options it was made for and holds its members as bits; bits without a meaning are kept.
-/

namespace Dashboard

inductive OptionKind where
  | history
  | link
  | host
deriving DecidableEq, Repr

namespace OptionKind

/-- The name under which messages speak of a family. -/
def name : OptionKind → Text
  | .history => "HistoryOption"
  | .link => "LinkOption"
  | .host => "HostOption"

def size : OptionKind → Nat
  | .history => 7
  | .link => 3
  | .host => 1

end OptionKind

/-- A set of options of one family. The option declared as number `i` is bit `i`. -/
structure OptionSet where
  kind : OptionKind
  bits : Nat
deriving DecidableEq, Repr

namespace OptionSet

/-- The options of both sets; the family is that of the first. -/
def insertBits (s : OptionSet) (bits : Nat) : OptionSet := { s with bits := s.bits ||| bits }

/-- The set that an integer stands for. A negative integer is read as a complement: within the family if it
reaches no further than the family's bits, and else within as many bits as the integer itself has. -/
def ofInt (kind : OptionKind) (n : Int) : OptionSet :=
  let family : Nat := Nat.pow 2 kind.size
  let modulus : Nat :=
    if -(family : Int) ≤ n then family else max family (Nat.pow 2 (n.natAbs.log2 + 1))
  ⟨kind, if 0 ≤ n then n.toNat else (modulus + n).toNat⟩

end OptionSet

inductive Category where
  | cpu
  | mem
  | net
  | disc
  | link
  | host
  | nprocs
  | rprocs
  | nfiles
deriving DecidableEq, Repr

namespace Category

def all : List Category := [.cpu, .mem, .net, .disc, .link, .host, .nprocs, .rprocs, .nfiles]

def keyword : Category → Text
  | .cpu => "cpu"
  | .mem => "mem"
  | .net => "net"
  | .disc => "disc"
  | .link => "link"
  | .host => "host"
  | .nprocs => "nprocs"
  | .rprocs => "rprocs"
  | .nfiles => "nfiles"

def ofKeyword? (w : Text) : Option Category := all.find? (fun c => c.keyword == w)

/-- The family from which the options of a category are taken. -/
def optionKind : Category → OptionKind
  | .link => .link
  | .host => .host
  | _ => .history

/-- The views over time that every sampled category has: all but the bars. -/
def plainHistory : List (Text × Nat) :=
  [("qmin", 2), ("min", 4), ("hour", 8), ("day", 16), ("week", 32), ("year", 64)]

/-- The words that choose options of a category, each with its bit, in the order in which they are written.
Traffic and disc have no bars, and nothing can be chosen for the host box. -/
def optionTable : Category → List (Text × Nat)
  | .net | .disc => plainHistory
  | .link => [("ip", 1), ("state", 2), ("access", 4)]
  | .host => []
  | .cpu | .mem | .nprocs | .rprocs | .nfiles => ("qmin_bars", 1) :: plainHistory

/-- The bit that a word chooses in a category. -/
def optionBit? (c : Category) (w : Text) : Option Nat := c.optionTable.lookup w

/-- The options of a new box: none, except that a host box always grants access. -/
def emptyOptions (c : Category) : OptionSet :=
  ⟨c.optionKind, if c = .host then 1 else 0⟩

/-- The words for the members of an option set, in the order of the table. There is an answer only if the
set is of the table's family, or if the table has no words at all. -/
def optionKeywords? (c : Category) (s : OptionSet) : Option (List Text) :=
  if c.optionTable = [] then some []
  else if s.kind ≠ c.optionKind then none
  else some ((c.optionTable.filter fun entry => entry.2 &&& s.bits == entry.2).map (·.1))

end Category

end Dashboard
