import TerminalMarkup.Text.Octets

/-!
# Files

A tree of files is seen from its root directory. `FileTree.read` follows a path from there; what lies outside the tree
is not found.
-/

namespace TerminalMarkup

/-- Why a file cannot be read. -/
inductive FileError
  | notFound
  | notDirectory
  | isDirectory
  /-- The path holds the character that ends a name. -/
  | invalidName
  /-- The contents are no text. -/
  | notText
  deriving DecidableEq, Repr

namespace FileError

/-- What is said of an error. -/
def message : FileError → String
  | notFound => "No such file or directory (os error 2)"
  | notDirectory => "Not a directory (os error 20)"
  | isDirectory => "Is a directory (os error 21)"
  | invalidName => "file name contained an unexpected NUL byte"
  | notText => "stream did not contain valid UTF-8"

end FileError

/-- A way to get at files by their paths. -/
abbrev FileReader := Text → Except FileError (List UInt8)

/-- The text of a file. -/
def FileReader.text (read : FileReader) (path : Text) : Except FileError Text := do
  match Text.ofOctets? (← read path) with
  | some s => pure s
  | none => throw .notText

/-- Directories and files with their contents, by the names on the way to them. -/
structure FileTree where
  /-- Files with their contents, and directories without. -/
  entries : List (List Text × Option (List UInt8))

namespace FileTree

/-- The tree with the given paths. -/
def ofPaths (entries : List (Text × Option (List UInt8))) : FileTree :=
  ⟨entries.map fun (path, content) => (Text.fields '/' path, content)⟩

/-- A place that a path leads to. -/
inductive Place
  /-- A directory around the tree. -/
  | outside
  /-- The place with the given names on the way from the root. -/
  | inside (names : List Text)
  deriving DecidableEq, Repr

/-- The contents of a place in the tree: none for a directory. -/
def at? (t : FileTree) (names : List Text) : Option (Option (List UInt8)) :=
  match t.entries.lookup names with
  | some content => some content
  | none => if t.entries.any fun e => names.isPrefixOf e.1 then some none else if names = [] then some none else none

/-- A place is a directory. -/
def checkDirectory (t : FileTree) : Place → Except FileError Unit
  | .outside => pure ()
  | .inside names =>
    match t.at? names with
    | none => throw .notFound
    | some none => pure ()
    | some (some _) => throw .notDirectory

/-- Goes on from a directory to one of its entries. -/
def step (t : FileTree) (place : Place) (name : Text) : Except FileError Place := do
  t.checkDirectory place
  if name = [] ∨ name = ['.'] then pure place
  else
    match place with
    | .outside => if name = ['.', '.'] then pure .outside else throw .notFound
    | .inside names =>
      if name = ['.', '.'] then pure (if names = [] then .outside else .inside names.dropLast)
      else pure (.inside (names ++ [name]))

/-- Reads the file that a path leads to. -/
def read (t : FileTree) : FileReader := fun path => do
  if Text.contains ['\x00'] path then throw .invalidName
  if path = [] then throw .notFound
  let start := if Text.startsWith ['/'] path then .outside else .inside []
  match ← (Text.fields '/' path).foldlM t.step start with
  | .outside => throw .isDirectory
  | .inside names =>
    match t.at? names with
    | none => throw .notFound
    | some none => throw .isDirectory
    | some (some content) => pure content

end FileTree
end TerminalMarkup
