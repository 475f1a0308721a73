import Dashboard.Proofs.Numeral
import Dashboard.Place

/-!
# The grammar of configurations and what it denotes

The language is described here without the machine that reads it. A configuration is a list of statements,
and three things are said about them:

* which rows of tokens spell them (`Statement.SpelledAs`), rule by rule as in the grammar
  `statement*`, `HOST+ ( "{" ( "waittime" NUMBER ";"? )* "}" )? ";"`, `( item ( ";"+ item )* ";"* )?` and
  `( box ( ";" box )* ";"? )?`;
* in which configurations they may be read at all (`Configuration.Admits`): a layout may be stated once;
* what they make of a configuration (`Configuration.extend`), where the last number of a kind counts and
  servers and boxes come one after another.
-/

namespace Dashboard

/-! ### Statements -/

/-- A box as it is defined: a category and entries of the table of its options. -/
structure BoxDefinition where
  category : Category
  options : List (Text × Nat)
deriving DecidableEq, Repr

inductive Item where
  | header
  | errlog (lines : Int)
  | boxes (definitions : List BoxDefinition)
deriving DecidableEq, Repr

/-- A statement of a configuration. The numbers of the block of a statement for servers are listed in order;
without a block there are none. -/
inductive Statement where
  | waittime (seconds : Int)
  | servers (urls : List Text) (waittimes : List Int)
  | layout (items : List Item)
deriving DecidableEq, Repr

/-! ### Spelling -/

/-- What may stand for an address: every token that does not end the list of addresses. -/
def IsHost (url : Text) : Prop := url ≠ Keyword.semicolon ∧ url ≠ Keyword.openBrace

instance (url : Text) : Decidable (IsHost url) := inferInstanceAs (Decidable (_ ∧ _))

namespace BoxDefinition

/-- `CATEGORY OPTION*` -/
def SpelledAs (b : BoxDefinition) (tokens : List Text) : Prop :=
  (∀ entry ∈ b.options, entry ∈ b.category.optionTable) ∧
    tokens = b.category.keyword :: b.options.map (·.1)

/-- `( box ( ";" box )* ";"? )?` -/
inductive AllSpelledAs : List BoxDefinition → List Text → Prop
  | nil : AllSpelledAs [] []
  | last {b : BoxDefinition} {tokens : List Text} : b.SpelledAs tokens → AllSpelledAs [b] tokens
  | cons {b : BoxDefinition} {bs : List BoxDefinition} {tokens rest : List Text} :
      b.SpelledAs tokens → AllSpelledAs bs rest →
        AllSpelledAs (b :: bs) (tokens ++ Keyword.semicolon :: rest)

end BoxDefinition

namespace Item

/-- `"header" | "errlog" NUMBER | "host" "{" boxes "}"` -/
inductive SpelledAs : Item → List Text → Prop
  | header : SpelledAs .header [Keyword.header]
  | errlog {lines : Int} {number : Text} :
      Number.SpelledAs 0 lines number → SpelledAs (.errlog lines) [Keyword.errlog, number]
  | boxes {bs : List BoxDefinition} {tokens : List Text} :
      BoxDefinition.AllSpelledAs bs tokens →
        SpelledAs (.boxes bs)
          (Keyword.host :: Keyword.openBrace :: tokens ++ [Keyword.closeBrace])

/-- `( item ( ";"+ item )* ";"* )?` -/
inductive AllSpelledAs : List Item → List Text → Prop
  | nil : AllSpelledAs [] []
  | last {i : Item} {tokens : List Text} : i.SpelledAs tokens → AllSpelledAs [i] tokens
  | cons {i : Item} {is : List Item} {tokens rest : List Text} (more : Nat) :
      i.SpelledAs tokens → AllSpelledAs is rest →
        AllSpelledAs (i :: is)
          (tokens ++ Keyword.semicolon :: (List.replicate more Keyword.semicolon ++ rest))

end Item

namespace Statement

/-- `( "waittime" NUMBER ";"? )*` -/
inductive BlockSpelledAs : List Int → List Text → Prop
  | nil : BlockSpelledAs [] []
  | bare {n : Int} {ns : List Int} {number : Text} {rest : List Text} :
      Number.SpelledAs Number.leastWaittime n number → BlockSpelledAs ns rest →
        BlockSpelledAs (n :: ns) (Keyword.waittime :: number :: rest)
  | ended {n : Int} {ns : List Int} {number : Text} {rest : List Text} :
      Number.SpelledAs Number.leastWaittime n number → BlockSpelledAs ns rest →
        BlockSpelledAs (n :: ns) (Keyword.waittime :: number :: Keyword.semicolon :: rest)

/-- `"waittime" NUMBER ";" | "servers" HOST+ ( "{" block "}" )? ";" | "layout" "{" items "}" ";"` -/
inductive SpelledAs : Statement → List Text → Prop
  | waittime {n : Int} {number : Text} :
      Number.SpelledAs Number.leastWaittime n number →
        SpelledAs (.waittime n) [Keyword.waittime, number, Keyword.semicolon]
  | servers {urls : List Text} :
      urls ≠ [] → (∀ url ∈ urls, IsHost url) →
        SpelledAs (.servers urls []) (Keyword.servers :: urls ++ [Keyword.semicolon])
  | serversBlock {urls : List Text} {ns : List Int} {tokens : List Text} :
      urls ≠ [] → (∀ url ∈ urls, IsHost url) → BlockSpelledAs ns tokens →
        SpelledAs (.servers urls ns)
          (Keyword.servers :: urls ++
            Keyword.openBrace :: (tokens ++ [Keyword.closeBrace, Keyword.semicolon]))
  | layout {is : List Item} {tokens : List Text} :
      Item.AllSpelledAs is tokens →
        SpelledAs (.layout is)
          (Keyword.layout :: Keyword.openBrace ::
            (tokens ++ [Keyword.closeBrace, Keyword.semicolon]))

/-- `statement*` -/
inductive AllSpelledAs : List Statement → List Text → Prop
  | nil : AllSpelledAs [] []
  | cons {s : Statement} {ss : List Statement} {tokens rest : List Text} :
      s.SpelledAs tokens → AllSpelledAs ss rest → AllSpelledAs (s :: ss) (tokens ++ rest)

end Statement

/-! ### Denotation -/

namespace BoxDefinition

/-- The box of a definition: its options are the union of those that are listed and the fixed ones of the
category. -/
def box (b : BoxDefinition) : Box :=
  ⟨b.category, b.options.foldl (fun chosen entry => chosen.insertBits entry.2)
    b.category.emptyOptions⟩

end BoxDefinition

namespace Item

def errlog? : Item → Option Int
  | errlog lines => some lines
  | _ => none

def boxList : Item → List Box
  | boxes definitions => definitions.map BoxDefinition.box
  | _ => []

end Item

namespace Layout

/-- The layout with items added to it: a header if one of them is, the last number for the error log, and
the boxes of all blocks in order. -/
def extend (l : Layout) (is : List Item) : Layout where
  header := l.header || is.contains .header
  errlog := (is.filterMap Item.errlog?).getLast?.getD l.errlog
  boxes := l.boxes ++ is.flatMap Item.boxList

end Layout

namespace Statement

def waittime? : Statement → Option Int
  | waittime seconds => some seconds
  | _ => none

/-- The servers of a statement, each with the last number of its block. -/
def serverList : Statement → List Server
  | servers urls waittimes => urls.map fun url => ⟨url, waittimes.getLast?.getD 0⟩
  | _ => []

def layout? : Statement → Option Layout
  | layout items => some (Layout.extend {} items)
  | _ => none

end Statement

namespace Configuration

/-- The configuration with statements added to it: the last number for the global waiting time, the servers
of all statements in order, and the layout if one is stated. -/
def extend (c : Configuration) (ss : List Statement) : Configuration where
  waittime := (ss.filterMap Statement.waittime?).getLast?.getD c.waittime
  servers := c.servers ++ ss.flatMap Statement.serverList
  layout := c.layout.or (ss.filterMap Statement.layout?).head?

/-- Whether statements state at most one layout, and none if there is one already. -/
def Admits (c : Configuration) (ss : List Statement) : Prop :=
  (ss.filterMap Statement.layout?).length ≤ if c.layout.isSome then 0 else 1

instance (c : Configuration) (ss : List Statement) : Decidable (c.Admits ss) :=
  inferInstanceAs (Decidable (_ ≤ _))

end Configuration

/-! ### One at a time

Statements and items denote the same if they are added one after another. -/

namespace Layout

@[simp] theorem extend_nil (l : Layout) : l.extend [] = l := by
  simp [extend]

theorem extend_cons (l : Layout) (i : Item) (is : List Item) :
    l.extend (i :: is) = (l.extend [i]).extend is := by
  cases i with
  | header => simp [extend, Item.errlog?, Item.boxList]
  | errlog lines =>
      simp [extend, Item.errlog?, Item.boxList, List.getLast?_cons]
  | boxes definitions => simp [extend, Item.errlog?, Item.boxList]

theorem extend_header (l : Layout) : l.extend [.header] = { l with header := true } := by
  simp [extend, Item.errlog?, Item.boxList]

theorem extend_errlog (l : Layout) (lines : Int) :
    l.extend [.errlog lines] = { l with errlog := lines } := by
  simp [extend, Item.errlog?, Item.boxList]

theorem extend_boxes (l : Layout) (definitions : List BoxDefinition) :
    l.extend [.boxes definitions] =
      { l with boxes := l.boxes ++ definitions.map BoxDefinition.box } := by
  simp [extend, Item.errlog?, Item.boxList]

end Layout

namespace Configuration

@[simp] theorem extend_nil (c : Configuration) : c.extend [] = c := by
  simp [extend]

theorem extend_cons (c : Configuration) (s : Statement) (ss : List Statement) :
    c.extend (s :: ss) = (c.extend [s]).extend ss := by
  cases s with
  | waittime seconds =>
      simp [extend, Statement.waittime?, Statement.serverList, Statement.layout?,
        List.filterMap_cons, List.getLast?_cons]
  | servers urls waittimes =>
      simp [extend, Statement.waittime?, Statement.serverList, Statement.layout?,
        List.filterMap_cons]
  | layout items =>
      cases hlayout : c.layout <;>
        simp [extend, Statement.waittime?, Statement.serverList, Statement.layout?, hlayout]

theorem extend_waittime (c : Configuration) (seconds : Int) :
    c.extend [.waittime seconds] = { c with waittime := seconds } := by
  simp [extend, Statement.waittime?, Statement.serverList, Statement.layout?,
        List.filterMap_cons]

theorem extend_servers (c : Configuration) (urls : List Text) (waittimes : List Int) :
    c.extend [.servers urls waittimes] =
      { c with servers :=
          c.servers ++ urls.map fun url => ⟨url, waittimes.getLast?.getD 0⟩ } := by
  simp [extend, Statement.waittime?, Statement.serverList, Statement.layout?,
        List.filterMap_cons]

theorem extend_layout (c : Configuration) (items : List Item) (h : c.layout = none) :
    c.extend [.layout items] = { c with layout := some (Layout.extend {} items) } := by
  simp [extend, Statement.waittime?, Statement.serverList, Statement.layout?, h]

theorem admits_nil (c : Configuration) : c.Admits [] := Nat.zero_le _

/-- Statements are admitted together if the first is admitted and the others are after it. -/
theorem admits_cons_iff (c : Configuration) (s : Statement) (ss : List Statement) :
    c.Admits (s :: ss) ↔ c.Admits [s] ∧ (c.extend [s]).Admits ss := by
  cases s with
  | waittime seconds => simp [Admits, extend, Statement.layout?, List.filterMap_cons]
  | servers urls waittimes => simp [Admits, extend, Statement.layout?, List.filterMap_cons]
  | layout items =>
      cases hlayout : c.layout <;> simp [Admits, extend, Statement.layout?, hlayout]

theorem admits_layout_iff (c : Configuration) (items : List Item) :
    c.Admits [.layout items] ↔ c.layout = none := by
  cases hlayout : c.layout <;> simp [Admits, Statement.layout?, hlayout]

end Configuration

end Dashboard
