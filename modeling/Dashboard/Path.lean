import Dashboard.Text

/-!
# Paths of files

A path is brought into a plain form before it is used or shown: empty parts and parts that are a single dot
say nothing and are dropped, a pair of dots is kept. A path that begins with slashes is absolute. Exactly two
of them are kept as two, any other number stands for one. The path without parts is a single dot.
-/

namespace Dashboard.Path

def here : Text := "."

def above : Text := ".."

def parts (path : Text) : List Text := path.splitOn Text.slash

/-- What a path begins with: nothing, one slash or two. -/
def root (path : Text) : Text :=
  match (path.takeWhile (· == Text.slash)).length with
  | 0 => ""
  | 2 => "//"
  | _ => "/"

def plain (path : Text) : Text :=
  let names := (parts path).filter fun part => part != [] && part != here
  let text := root path ++ Text.join "/" names
  if text = [] then here else text

end Dashboard.Path
