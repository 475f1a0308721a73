import Dashboard.Text

/-!
# Line ends of files

Files end their lines with a line feed, a carriage return, or both in that order. A file is read with every
line end as a line feed.
-/

namespace Dashboard.Text

/-- The text with each line end as a line feed. -/
def unifyNewlines : Text → Text
  | [] => []
  | b :: rest =>
    if b = carriageReturn then
      match rest with
      | [] => [lineFeed]
      | b' :: rest' =>
        if b' = lineFeed then lineFeed :: unifyNewlines rest'
        else lineFeed :: unifyNewlines (b' :: rest')
    else b :: unifyNewlines rest

end Dashboard.Text
