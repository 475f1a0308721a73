import Dashboard.Place

/-!
# Phrases

A phrase is a part of the language that can be read by itself: a place where it starts and a condition under
which it is over, which may look at the next token but takes none. Reading a phrase takes tokens until it is
over or a token is refused; either way it tells where it ended, what the configuration then holds and which
tokens are left.
-/

namespace Dashboard

/-- A part of the language that can be read by itself. -/
structure Phrase where
  start : Place
  /-- Whether the phrase is over at a place, given the next token if there is one. -/
  isOver : Place → Option Text → Bool

structure Reading where
  place : Place
  config : Configuration
  rest : List Text
  /-- Why the reading stopped before the phrase was over. -/
  refusal : Option Refusal
deriving DecidableEq, Repr

namespace Phrase

def readFrom (phrase : Phrase) (p : Place) (c : Configuration) : List Text → Reading
  | [] => ⟨p, c, [], if phrase.isOver p none then none else some (.fault p.missing)⟩
  | token :: rest =>
    if phrase.isOver p (some token) then ⟨p, c, token :: rest, none⟩
    else match p.step c token with
      | .ok (p', c') => phrase.readFrom p' c' rest
      | .error refusal => ⟨p, c, token :: rest, some refusal⟩

def read (phrase : Phrase) (c : Configuration) (tokens : List Text) : Reading :=
  phrase.readFrom phrase.start c tokens

/-- A phrase that is over as soon as it reaches a place, whatever follows. -/
def upTo (start finish : Place) : Phrase := ⟨start, fun p _ => p == finish⟩

/-- A whole configuration: statements up to the end of the text. -/
def configuration : Phrase := ⟨.statement, fun p next => p == .statement && next.isNone⟩

/-- A statement for the global waiting time, after its keyword. -/
def waittime : Phrase := upTo .waittime .statement

/-- A statement for servers, after its keyword. -/
def servers : Phrase := upTo (.hosts 0) .statement

/-- The addresses of a statement for servers, up to the token after them or the end of the text. -/
def hosts : Phrase where
  start := .hosts 0
  isOver p next :=
    match p, next with
    | .hosts count, none => count != 0
    | .hosts count, some token =>
      count != 0 && (token == Keyword.semicolon || token == Keyword.openBrace)
    | _, _ => false

/-- The block for the last `count` servers, after the brace that opens it. -/
def serverBlock (count : Int) : Phrase := upTo (.serverBlock count none) .serversEnd

/-- A layout, after its keyword. -/
def layout : Phrase := upTo .layoutStart .statement

/-- A block of boxes, after its keyword. -/
def boxes : Phrase := upTo .boxesStart .itemEnd

/-- A single box, up to the token that ends it. -/
def box : Phrase where
  start := .box
  isOver p next :=
    match p, next with
    | .options _ _, some token => token == Keyword.semicolon || token == Keyword.closeBrace
    | _, _ => false

end Phrase

namespace Place

/-- How many addresses a list of addresses had, at its end. -/
def hostCount? : Place → Option Nat
  | hosts count => some count
  | _ => none

def box? : Place → Option Box
  | options category chosen => some (.ofOptions category chosen)
  | _ => none

end Place

end Dashboard
