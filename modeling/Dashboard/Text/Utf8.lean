import Dashboard.Text

/-!
# The characters of a text

A text is read as UTF-8 wherever that is possible. A byte with which no character begins is a stray byte; it
stands for itself, and reading goes on behind it. So every text has one reading, and bytes that are no UTF-8
are neither lost nor taken for characters.
-/

namespace Dashboard

/-- What a text is made of: characters, and bytes that belong to none. -/
inductive Glyph where
  | char (c : Char)
  | stray (b : UInt8)
deriving DecidableEq, Repr

namespace Text

/-- A byte that continues a character: its low six bits. -/
def continuation? (b : UInt8) : Option Nat :=
  if 0x80 ≤ b ∧ b ≤ 0xbf then some (b.toNat - 0x80) else none

/-- The character with the given code, if the code is one and needs a form of this length. -/
def charFrom? (least code : Nat) : Option Char :=
  if h : least ≤ code ∧ code.isValidChar then some (Char.ofNatAux code h.2) else none

/-- The character with which a text begins and the number of its bytes. The shortest form of a character is
its only one. -/
def firstChar? : Text → Option (Char × Nat)
  | [] => none
  | a :: rest =>
    if a < 0x80 then (charFrom? 0 a.toNat).map (·, 1)
    else if a < 0xc0 then none
    else if a < 0xe0 then
      match rest with
      | b :: _ => do
        let b ← continuation? b
        return (← charFrom? 0x80 ((a.toNat - 0xc0) * 64 + b), 2)
      | _ => none
    else if a < 0xf0 then
      match rest with
      | b :: c :: _ => do
        let b ← continuation? b
        let c ← continuation? c
        return (← charFrom? 0x800 (((a.toNat - 0xe0) * 64 + b) * 64 + c), 3)
      | _ => none
    else if a < 0xf8 then
      match rest with
      | b :: c :: d :: _ => do
        let b ← continuation? b
        let c ← continuation? c
        let d ← continuation? d
        return (← charFrom? 0x10000 ((((a.toNat - 0xf0) * 64 + b) * 64 + c) * 64 + d), 4)
      | _ => none
    else none

def glyphs : Text → List Glyph
  | [] => []
  | b :: rest =>
    match firstChar? (b :: rest) with
    | some (c, bytes) => .char c :: glyphs (rest.drop (bytes - 1))
    | none => .stray b :: glyphs rest
termination_by t => t.length
decreasing_by
  · simp only [List.length_drop, List.length_cons]; omega
  · simp

def ofChar (c : Char) : Text := String.utf8EncodeChar c

/-- The digits of a number in hexadecimal, at least `width` of them. -/
def hex (width n : Nat) : Text :=
  let digits := ofString (String.ofList (Nat.toDigits 16 n))
  List.replicate (width - digits.length) zeroDigit ++ digits

/-- How a stray byte is written where only characters can stand. -/
def escapedStray (b : UInt8) : Text := concat ["\\udc", hex 2 b.toNat]

/-- The text with every stray byte escaped, so that it is UTF-8. -/
def escapeStrays (t : Text) : Text :=
  t.glyphs.flatMap fun
    | .char c => ofChar c
    | .stray b => escapedStray b

end Text

end Dashboard
