import Dashboard.Configuration
import Dashboard.Keyword
import Dashboard.Number

/-!
# Reading one token at a time

The configuration language, with a token for each word in quotes:

    configuration := statement*
    statement     := "waittime" NUMBER ";"
                   | "servers" HOST+ ( "{" ( "waittime" NUMBER ";"? )* "}" )? ";"
                   | "layout" "{" ( item ( ";"+ item )* ";"* )? "}" ";"
    item          := "header" | "errlog" NUMBER
                   | "host" "{" ( box ( ";" box )* ";"? )? "}"
    box           := CATEGORY OPTION*

The language nests to a fixed depth, so it is read by a machine with finitely many kinds of places and no
stack. A `Place` says what may come next, and `Place.step` takes one token there: it either refuses the
token or moves on and writes what the token settles into the configuration. Nothing is written before it is
settled, and what is written stays if a later token is refused:

* a number counts as soon as its token is taken, before the semicolon after it;
* an address is added as soon as it is taken, but the waiting time of a block for servers only at the
  closing brace of the block;
* a box is added at the semicolon or brace that ends it, with all its options.
-/

namespace Dashboard

/-- What the reading stands before. -/
inductive Place where
  | statement
  /-- The number of a statement for the global waiting time. -/
  | waittime
  | waittimeEnd
  /-- Addresses, of which `count` have been taken. -/
  | hosts (count : Nat)
  /-- The block for the last `count` servers, with the last number taken in it. -/
  | serverBlock (count : Int) (waittime : Option Int)
  /-- A number in that block. -/
  | serverWaittime (count : Int)
  /-- What follows a number in that block: a semicolon may, once. -/
  | serverWaittimeEnd (count : Int) (waittime : Int)
  | serversEnd
  | layoutStart
  /-- The inside of a layout where the configuration already has one. -/
  | layoutAgain
  /-- An item of the layout, or its end; after an item also more semicolons. -/
  | item (first : Bool)
  | errlog
  /-- What ends an item: a semicolon, or the end of the layout. -/
  | itemEnd
  | boxesStart
  | boxes
  | box
  /-- The options of a box, with those taken so far. -/
  | options (category : Category) (chosen : OptionSet)
  | layoutEnd
deriving DecidableEq, Repr

namespace Place

abbrev Step := Except Refusal (Place × Configuration)

/-- Refuses a token that begins nothing at its place. -/
def unknown (token : Text) : Step := .error (.fault (.unknownToken token))

/-- Takes the one token that is possible at its place and moves on. -/
def expect (expected token : Text) (next : Place × Configuration) : Step :=
  if token = expected then .ok next else .error (.fault (.unexpectedToken expected token))

def stepStatement (c : Configuration) (token : Text) : Step :=
  if token = Keyword.servers then .ok (.hosts 0, c)
  else if token = Keyword.layout then .ok (.layoutStart, c)
  else if token = Keyword.waittime then .ok (.waittime, c)
  else unknown token

/-- Takes an address or what follows the last one. -/
def stepHosts (count : Nat) (c : Configuration) (token : Text) : Step :=
  if token = Keyword.semicolon ∨ token = Keyword.openBrace then
    if count = 0 then .error (.fault .noServers)
    else if token = Keyword.semicolon then .ok (.statement, c)
    else .ok (.serverBlock count none, c)
  else .ok (.hosts (count + 1), c.addServer token)

/-- Starts an entry of a block for servers, or ends the block. -/
def stepServerBlock (count : Int) (waittime : Option Int) (c : Configuration) (token : Text) : Step :=
  if token = Keyword.closeBrace then
    .ok (.serversEnd, match waittime with
      | none => c
      | some n => c.setLastWaittimes count n)
  else if token = Keyword.waittime then .ok (.serverWaittime count, c)
  else unknown token

def stepItem (first : Bool) (c : Configuration) (token : Text) : Step :=
  if token = Keyword.closeBrace then .ok (.layoutEnd, c)
  else if token = Keyword.semicolon ∧ first = false then .ok (.item false, c)
  else if token = Keyword.header then
    .ok (.itemEnd, c.modifyLayout fun l => { l with header := true })
  else if token = Keyword.errlog then .ok (.errlog, c)
  else if token = Keyword.host then .ok (.boxesStart, c)
  else unknown token

def stepBox (c : Configuration) (token : Text) : Step :=
  match Category.ofKeyword? token with
  | some category => .ok (.options category category.emptyOptions, c)
  | none => unknown token

/-- Takes an option of a box, or ends the box and adds it. -/
def stepOptions (category : Category) (chosen : OptionSet) (c : Configuration) (token : Text) : Step :=
  let added := c.modifyLayout (·.addBox (.ofOptions category chosen))
  if token = Keyword.semicolon then .ok (.boxes, added)
  else if token = Keyword.closeBrace then .ok (.itemEnd, added)
  else match category.optionBit? token with
    | some bit => .ok (.options category (chosen.insertBits bit), c)
    | none => unknown token

def step (p : Place) (c : Configuration) (token : Text) : Step :=
  match p with
  | .statement => stepStatement c token
  | .waittime => do
    let n ← Number.read "global waittime" Number.leastWaittime Number.greatest token
    return (.waittimeEnd, { c with waittime := n })
  | .waittimeEnd => expect Keyword.semicolon token (.statement, c)
  | .hosts count => stepHosts count c token
  | .serverBlock count last => stepServerBlock count last c token
  | .serverWaittime count => do
    let n ← Number.read "server waittime" Number.leastWaittime Number.greatest token
    return (.serverWaittimeEnd count n, c)
  | .serverWaittimeEnd count n =>
    if token = Keyword.semicolon then .ok (.serverBlock count (some n), c)
    else stepServerBlock count (some n) c token
  | .serversEnd => expect Keyword.semicolon token (.statement, c)
  | .layoutStart =>
    expect Keyword.openBrace token
      (if c.layout.isSome then (.layoutAgain, c) else (.item true, { c with layout := some {} }))
  | .layoutAgain => .error (.fault (.duplicateSection Keyword.layout))
  | .item first => stepItem first c token
  | .errlog => do
    let n ← Number.read "layout errlog" 0 Number.greatest token
    return (.itemEnd, c.modifyLayout fun l => { l with errlog := n })
  | .itemEnd =>
    if token = Keyword.closeBrace then .ok (.layoutEnd, c)
    else expect Keyword.semicolon token (.item false, c)
  | .boxesStart => expect Keyword.openBrace token (.boxes, c)
  | .boxes => if token = Keyword.closeBrace then .ok (.itemEnd, c) else stepBox c token
  | .box => stepBox c token
  | .options category chosen => stepOptions category chosen c token
  | .layoutEnd => expect Keyword.semicolon token (.statement, c)

/-- What is wrong if no token follows here. -/
def missing : Place → Fault
  | .hosts 0 => .noServers
  | .layoutAgain => .duplicateSection Keyword.layout
  | _ => .unexpectedEnd

end Place

end Dashboard
