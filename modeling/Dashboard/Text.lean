/-!
# Texts as bytes

A configuration file is meant to be UTF-8, but nothing in it is refused for not being so: an address may
hold any bytes at all, and it is kept, reported and written out as it stands. A text is therefore a list of
bytes. The four separators, the digits and every keyword are single ASCII bytes or strings of them, and no
byte of a longer UTF-8 character is ASCII, so reading bytes is reading characters.
-/

namespace Dashboard

/-- A text: its bytes, which are normally UTF-8. -/
abbrev Text := List UInt8

namespace Text

def ofString (s : String) : Text := s.toUTF8.data.toList

instance : Coe String Text := ⟨ofString⟩

def concat (ts : List Text) : Text := ts.flatten

/-- The given texts with `separator` between each two neighbours. -/
def join (separator : Text) (ts : List Text) : Text := separator.intercalate ts

/-! ### Bytes with a meaning -/

def tab : UInt8 := 0x09
def lineFeed : UInt8 := 0x0a
def carriageReturn : UInt8 := 0x0d
def space : UInt8 := 0x20
def plusSign : UInt8 := 0x2b
def minusSign : UInt8 := 0x2d
def slash : UInt8 := 0x2f
def zeroDigit : UInt8 := 0x30
def nineDigit : UInt8 := 0x39
def equalsSign : UInt8 := 0x3d

/-- Only these four bytes separate words: not form feed, not vertical tab, and no character outside ASCII. -/
def isSeparator (b : UInt8) : Bool :=
  b == space || b == tab || b == carriageReturn || b == lineFeed

def isDigit (b : UInt8) : Bool := zeroDigit ≤ b && b ≤ nineDigit

/-- The parts of a text between the occurrences of a byte; empty parts are kept, so that joining them with
that byte gives the text back. -/
def splitOn (b : UInt8) : Text → List Text
  | [] => [[]]
  | x :: rest =>
    if x = b then [] :: splitOn b rest
    else match splitOn b rest with
      | [] => [[x]]
      | part :: parts => (x :: part) :: parts

/-- The text before and after the first occurrence of a byte, if there is one. -/
def cut? (b : UInt8) (t : Text) : Option (Text × Text) :=
  match t.dropWhile (· != b) with
  | [] => none
  | _ :: after => some (t.takeWhile (· != b), after)

/-- The text, with spaces after it up to the given number of bytes. -/
def padRight (width : Nat) (t : Text) : Text :=
  t ++ List.replicate (width - t.length) space

end Text

end Dashboard
