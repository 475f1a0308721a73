import Dashboard.Text

/-!
# Tokens

The configuration language knows no quoting, no escapes and no comments. A token is a longest run of bytes
without a separator, so a semicolon or a brace is one only where it stands alone: `host {` is two tokens,
`host{` is one. With each token goes the line on which it starts, counted from 1 in line feeds.
-/

namespace Dashboard

/-- A word of the text and the line on which it starts. -/
structure Token where
  value : Text
  line : Nat
deriving DecidableEq, Repr

namespace Token

/-- The tokens of a text that starts on the given line. -/
def scan (line : Nat) : Text → List Token
  | [] => []
  | b :: rest =>
    if Text.isSeparator b then
      scan (if b = Text.lineFeed then line + 1 else line) rest
    else
      ⟨b :: rest.takeWhile (!Text.isSeparator ·), line⟩ ::
        scan line (rest.dropWhile (!Text.isSeparator ·))
termination_by t => t.length
decreasing_by
  · simp
  · have := (List.dropWhile_sublist (!Text.isSeparator ·) (l := rest)).length_le
    simp only [List.length_cons]
    omega

end Token

/-- The tokens of a whole text, which starts on line 1. -/
def tokenize (text : Text) : List Token := Token.scan 1 text

/-- Whether a text is a single token: it is not empty and holds no separator. -/
def Text.isWord (t : Text) : Bool := !t.isEmpty && t.all (!Text.isSeparator ·)

end Dashboard
