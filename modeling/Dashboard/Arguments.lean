import Dashboard.Text.DecimalDigit
import Dashboard.Text.Quoted

/-!
# Arguments of the command line

Arguments are options or operands. First each argument is classified by itself; then they are taken from left
to right.

* An option may be spelled in full, a long one also by any beginning that no other option shares. A value is
  attached to it after an equals sign or, for a short option, directly; what is attached to a short option
  without a value is read as more short options. A value that is not attached is the next argument.
* What begins with a minus sign and is no option is still an operand if it is the minus sign alone, a
  negative number, or has a space in it. After two minus signs alone everything is an operand.
* The operands of one group of neighbours are the addresses. Operands of a later group are not recognised,
  and neither are arguments that look like an option and are none.
-/

namespace Dashboard

inductive Opt where
  | help
  | config
  | dump
  | printDefault
deriving DecidableEq, Repr

namespace Opt

/-- The spellings of all options, in the order in which they are listed. -/
def spellings : List (Text × Opt) :=
  [("-h", help), ("--help", help), ("-f", config), ("--config", config), ("--dump", dump),
    ("--print-default", printDefault)]

def takesValue : Opt → Bool
  | config => true
  | _ => false

/-- The name under which messages speak of an option. -/
def name (o : Opt) : Text := Text.join "/" ((spellings.filter (·.2 = o)).map (·.1))

end Opt

inductive UsageError where
  | ambiguous (argument : Text) (spellings : List Text)
  | expectedValue (o : Opt)
  | unexpectedValue (o : Opt) (value : Text)
  | unrecognized (arguments : List Text)
deriving DecidableEq, Repr

namespace UsageError

def message : UsageError → Text
  | ambiguous argument spellings =>
    .concat ["ambiguous option: ", argument, " could match ", Text.join ", " spellings]
  | expectedValue o => .concat ["argument ", o.name, ": expected one argument"]
  | unexpectedValue o value =>
    .concat ["argument ", o.name, ": ignored explicit argument ", value.quoted]
  | unrecognized arguments => .concat ["unrecognized arguments: ", Text.join " " arguments]

end UsageError

/-- What is attached to an option. -/
structure Attached where
  value : Text
  /-- Whether an equals sign stands between. -/
  byEquals : Bool
deriving DecidableEq, Repr

/-- What an argument is taken for. -/
inductive Argument where
  | operand (text : Text)
  /-- Two minus signs alone, after which there are only operands. -/
  | endOfOptions
  | option (spelling : Text) (o : Opt) (attached : Option Attached)
  /-- An argument that looks like an option and is none. -/
  | unknown (text : Text)
deriving DecidableEq, Repr

namespace Argument

def dashes : Text := "--"

/-- Whether a spelling or argument is one of a long option. -/
def isLong (t : Text) : Bool := dashes.isPrefixOf t

/-- Whether an argument reads as a negative number: a minus sign and decimal digits of any script, perhaps
with a point before the last of them. A line feed at the end does not count. -/
def isNegativeNumber (t : Text) : Bool :=
  let isDigit : Glyph → Bool
    | .char c => Text.isDecimalDigit c
    | .stray _ => false
  let allDigits (gs : List Glyph) : Bool := !gs.isEmpty && gs.all isDigit
  match t.glyphs with
  | .char '-' :: rest =>
    let number := if rest.getLast? = some (.char '\n') then rest.dropLast else rest
    allDigits number ||
      match number.dropWhile isDigit with
      | .char '.' :: fraction => allDigits fraction
      | _ => false
  | _ => false

/-- The options that an argument may be meant for, other than by a full spelling. A long option may be cut
short, and its value is attached by an equals sign; a short one has its value attached directly. -/
def candidates (t : Text) : List (Text × Opt × Option Attached) :=
  if isLong t then
    let beginning := t.takeWhile (· != Text.equalsSign)
    let attached := (t.cut? Text.equalsSign).map fun (_, value) => ⟨value, true⟩
    (Opt.spellings.filter fun (spelling, _) => beginning.isPrefixOf spelling).map
      fun (spelling, o) => (spelling, o, attached)
  else
    (Opt.spellings.filter fun (spelling, _) => spelling == t.take 2).map
      fun (spelling, o) => (spelling, o, some ⟨t.drop 2, false⟩)

/-- The option that is spelled in full before the first equals sign. -/
def beforeEquals? (t : Text) : Option Argument := do
  let (spelling, value) ← t.cut? Text.equalsSign
  let o ← Opt.spellings.lookup spelling
  return option spelling o (some ⟨value, true⟩)

/-- What an argument by itself is taken for. -/
def classify (t : Text) : Except UsageError Argument :=
  if t.head? ≠ some Text.minusSign then .ok (operand t)
  else match Opt.spellings.lookup t with
    | some o => .ok (option t o none)
    | none =>
      if t.length = 1 then .ok (operand t)
      else match beforeEquals? t with
        | some argument => .ok argument
        | none =>
          match candidates t with
          | [(spelling, o, attached)] => .ok (option spelling o attached)
          | [] =>
            if isNegativeNumber t ∨ Text.space ∈ t then .ok (operand t) else .ok (unknown t)
          | several => .error (.ambiguous t (several.map (·.1)))

def classifyAll : List Text → Except UsageError (List Argument)
  | [] => .ok []
  | t :: rest =>
    if t = dashes then .ok (endOfOptions :: rest.map operand)
    else do
      let first ← classify t
      let others ← classifyAll rest
      return first :: others

def operand? : Argument → Option Text
  | operand t => some t
  | _ => none

/-- Whether an argument can stand in a group of operands. -/
def isOperandLike : Argument → Bool
  | operand _ | endOfOptions => true
  | _ => false

/-- The text of an argument, as far as it is no option. -/
def text : Argument → Text
  | operand t | unknown t => t
  | endOfOptions => dashes
  | option spelling _ _ => spelling

end Argument

/-- How far what is attached to a short option without a value is read as more short options. Both ways are in
use. -/
inductive Bundling where
  /-- All of it has to be short options. An equals sign in front of it is passed over. -/
  | whole
  /-- The front of it is, up to a letter that is no option. Nothing may be attached by an equals sign to an option
  without a value. -/
  | front
deriving DecidableEq, Repr

/-- What one argument for options comes to. -/
structure Usage where
  /-- The options it stands for, each with its value. -/
  options : List (Opt × Text) := []
  /-- Whether the next argument is taken for the value of the last option. -/
  takesNext : Bool := false
  /-- What is left of it behind its options. -/
  unrecognized : List Text := []
deriving DecidableEq, Repr

namespace Usage

/-- What an option without anything attached comes to, before the operand `next?`. -/
def alone (o : Opt) (next? : Option Text) : Except UsageError Usage :=
  if o.takesValue then
    match next? with
    | some value => .ok { options := [(o, value)], takesNext := true }
    | none => .error (.expectedValue o)
  else .ok { options := [(o, [])] }

/-- What an option with a value attached comes to, before the operand `next?`. To an option without a value
only short options may be attached, and only if it is short itself. -/
def withAttached (bundling : Bundling) (o : Opt) (long : Bool) (next? : Option Text) (byEquals : Bool)
    (value : Text) : Except UsageError Usage :=
  if o.takesValue then .ok { options := [(o, value)] }
  else match value with
    | [] => .error (.unexpectedValue o value)
    | letter :: rest =>
      if long ∨ bundling = .front ∧ (byEquals ∨ letter = Text.minusSign) then
        .error (.unexpectedValue o value)
      else match Opt.spellings.lookup [Text.minusSign, letter] with
        | none =>
          match bundling with
          | .whole => .error (.unexpectedValue o value)
          | .front => .ok { options := [(o, [])], unrecognized := [Text.minusSign :: value] }
        | some o' => do
          let usage ← match rest with
            | [] => alone o' next?
            | sign :: behind =>
              if bundling = .front ∧ sign = Text.equalsSign then
                withAttached bundling o' false next? true behind
              else withAttached bundling o' false next? false (sign :: behind)
          return { usage with options := (o, []) :: usage.options }

/-- What an option comes to, before the operand `next?`. -/
def ofOption (bundling : Bundling) (o : Opt) (long : Bool) (attached : Option Attached)
    (next? : Option Text) : Except UsageError Usage :=
  match attached with
  | none => alone o next?
  | some a => withAttached bundling o long next? a.byEquals a.value

end Usage

/-- What the arguments ask for in a run that reads a configuration. -/
structure Arguments where
  urls : List Text := []
  /-- The path of the file, if one is given. -/
  path : Option Text := none
  dump : Bool := false
  printDefault : Bool := false
deriving DecidableEq, Repr

namespace Arguments

def set (a : Arguments) : Opt × Text → Arguments
  | (.help, _) => a
  | (.config, value) => { a with path := some value }
  | (.dump, _) => { a with dump := true }
  | (.printDefault, _) => { a with printDefault := true }

end Arguments

inductive Request where
  | help
  | proceed (a : Arguments)
deriving DecidableEq, Repr

namespace Request

/-- Takes the arguments from left to right. Help is given as soon as it is asked for; arguments that are not
recognised are an error only at the end. -/
def collect (bundling : Bundling) (a : Arguments) (urlsTaken : Bool) (unrecognized : List Text) :
    List Argument → Except UsageError Request
  | [] => if unrecognized = [] then .ok (.proceed a) else .error (.unrecognized unrecognized)
  | .unknown t :: rest => collect bundling a urlsTaken (unrecognized ++ [t]) rest
  | .option spelling o attached :: rest => do
    let next? := rest.head?.bind Argument.operand?
    let usage ← Usage.ofOption bundling o (Argument.isLong spelling) attached next?
    if usage.options.any (·.1 = .help) then return .help
    else
      collect bundling (usage.options.foldl .set a) urlsTaken (unrecognized ++ usage.unrecognized)
        (if usage.takesNext then rest.tail else rest)
  | first :: rest =>
    let group := first :: rest.takeWhile Argument.isOperandLike
    let others := rest.dropWhile Argument.isOperandLike
    if urlsTaken then collect bundling a true (unrecognized ++ group.map Argument.text) others
    else collect bundling { a with urls := group.filterMap Argument.operand? } true unrecognized others
termination_by arguments => arguments.length
decreasing_by
  · simp
  · split <;> simp only [List.length_cons, List.length_tail] <;> omega
  all_goals
    have := (List.dropWhile_sublist Argument.isOperandLike (l := rest)).length_le
    simp only [List.length_cons]
    omega

def ofArguments (bundling : Bundling) (arguments : List Text) : Except UsageError Request := do
  collect bundling {} false [] (← Argument.classifyAll arguments)

end Request

end Dashboard
