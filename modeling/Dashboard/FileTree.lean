import Dashboard.Path

/-!
# Trees of files

A tree of files holds what lies in a working directory: files, directories and symbolic links, each by its
path from there. Looking up a path follows it part by part, and through the links it meets, to what reading
the file at its end gives. What lies outside of the working directory is taken to be directories without
entries.
-/

namespace Dashboard

inductive FileRead where
  | missing
  /-- The file is there but cannot be read, for the given reason. -/
  | unreadable (reason : Text)
  | content (bytes : Text)
deriving DecidableEq, Repr

namespace FileRead

def isDirectory : FileRead := .unreadable "Is a directory"
def notDirectory : FileRead := .unreadable "Not a directory"
def nameTooLong : FileRead := .unreadable "File name too long"
def tooManyLinks : FileRead := .unreadable "Too many levels of symbolic links"

end FileRead

inductive Entry where
  | file (content : Text)
  | directory
  | link (target : Text)
deriving DecidableEq, Repr

/-- A directory: one of the tree, by the names that lead to it with the innermost first, or any other. -/
inductive Directory where
  | inside (names : List Text)
  | outside
deriving DecidableEq, Repr

namespace Directory

def parent : Directory → Directory
  | inside (_ :: names) => inside names
  | _ => outside

def child (name : Text) : Directory → Directory
  | inside names => inside (name :: names)
  | outside => outside

/-- Where a path starts that is followed from a directory. -/
def startOf (d : Directory) (path : Text) : Directory :=
  if path.head? = some Text.slash then outside else d

end Directory

/-- What stands at the end of a path. -/
inductive Found where
  | directory (d : Directory)
  | file (content : Text)
  /-- Nothing that can be read, for the reason given. -/
  | nothing (why : FileRead)
deriving DecidableEq, Repr

/-- The entries of a working directory and of the directories in it, each by the names that lead to it with
the innermost first. -/
structure FileTree where
  entries : List (List Text × Entry) := []
deriving DecidableEq, Repr

namespace FileTree

def nameLimit : Nat := 255

def pathLimit : Nat := 4095

/-- How many links are followed on the way to one file. -/
def linkLimit : Nat := 40

def entry? (t : FileTree) (d : Directory) (name : Text) : Option (List Text × Entry) :=
  match d with
  | .outside => none
  | .inside names => (t.entries.lookup (name :: names)).map (name :: names, ·)

/-- Follows the parts of a path from a directory; `links` links may still be met. -/
def follow (t : FileTree) (links : Nat) (d : Directory) : List Text → Found
  | [] => .directory d
  | name :: rest =>
    if name = [] ∨ name = Path.here then t.follow links d rest
    else if name = Path.above then t.follow links d.parent rest
    else if nameLimit < name.length then .nothing .nameTooLong
    else match t.entry? d name with
      | none => .nothing .missing
      | some (names, .directory) => t.follow links (.inside names) rest
      | some (_, .file content) => if rest = [] then .file content else .nothing .notDirectory
      | some (_, .link target) =>
        match links with
        | 0 => .nothing .tooManyLinks
        | links' + 1 => t.follow links' (d.startOf target) (Path.parts target ++ rest)
termination_by names => (links, names.length)

def read (t : FileTree) (path : Text) : FileRead :=
  if pathLimit < path.length then .nameTooLong
  else match t.follow linkLimit ((Directory.inside []).startOf path) (Path.parts path) with
    | .directory _ => .isDirectory
    | .file content => .content content
    | .nothing why => why

/-! ### Building a tree -/

/-- Adds an entry to a directory; a directory outside of the tree takes none. -/
def add (t : FileTree) (d : Directory) (name : Text) (entry : Entry) : FileTree :=
  match d with
  | .outside => t
  | .inside names => ⟨(name :: names, entry) :: t.entries⟩

/-- Adds an entry under the given names from a directory on, and the directories on the way that are
missing. -/
def insert (t : FileTree) (d : Directory) (entry : Entry) : List Text → FileTree
  | [] => t
  | [name] => t.add d name entry
  | name :: rest =>
    match t.follow linkLimit d [name] with
    | .directory d' => t.insert d' entry rest
    | _ => (t.add d name .directory).insert (d.child name) entry rest

def ofEntries (entries : List (Text × Entry)) : FileTree :=
  entries.foldl (fun t (path, entry) =>
    t.insert (.inside []) entry ((Path.parts path).filter fun part => part != [] && part != Path.here)) {}

end FileTree

end Dashboard
