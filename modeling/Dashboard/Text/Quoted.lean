import Dashboard.Text.Printable
import Dashboard.Text.Utf8

/-!
# Quoted texts

A text in quotes, for messages that show it exactly. The quotes are single, unless the text holds single
quotes and no double ones. A backslash stands before the chosen quote, before a backslash, and for tab, line
feed and carriage return before their letters; every other unprintable character is written by its code in
two, four or eight hexadecimal digits, and a stray byte by the code `dc` and its own two digits.
-/

namespace Dashboard.Text

/-- A character between the given quotes. -/
def quotedChar (quote : Char) (c : Char) : Text :=
  if c = quote ∨ c = '\\' then concat ["\\", ofChar c]
  else if c = '\t' then "\\t"
  else if c = '\n' then "\\n"
  else if c = '\r' then "\\r"
  else if isPrintable c then ofChar c
  else if c.toNat < 0x100 then concat ["\\x", hex 2 c.toNat]
  else if c.toNat < 0x10000 then concat ["\\u", hex 4 c.toNat]
  else concat ["\\U", hex 8 c.toNat]

def quoteFor (t : List Glyph) : Char :=
  if .char '\'' ∈ t ∧ .char '"' ∉ t then '"' else '\''

def quoted (t : Text) : Text :=
  let gs := t.glyphs
  let quote := quoteFor gs
  ofChar quote ++ (gs.flatMap fun
    | .char c => quotedChar quote c
    | .stray b => escapedStray b) ++ ofChar quote

end Dashboard.Text
