import Std.Data.ExtTreeMap
import ResourceLookup.Properties.Source

/-!
# File trees

A file tree holds directories and files under absolute paths, and a working directory from which
relative paths lead. A path is followed name by name: an empty name and `.` stay at a directory,
`..` leads to the one above (the topmost one is above itself), and any other name leads to what
has this name there. No name leads anywhere from a file, so that a path that ends in `/` is
never that of a file.
-/

namespace ResourceLookup

/-- What stands under a path. -/
inductive FileEntry where
  | directory
  | file (content : Source)
deriving DecidableEq, Repr

/-- Directories and files by the names on the way from the topmost directory. -/
structure FileTree where
  entries : Std.ExtTreeMap (List Text) FileEntry compare
  workingDirectory : List Text

namespace FileTree

/-- The separator of the names in a path. -/
def separator : Char := '/'

/-- The number of bytes that no path can have. -/
def pathLimit : Nat := 4096

/-- What stands at a place. The topmost directory is always there. -/
def entryAt? (tree : FileTree) (place : List Text) : Option FileEntry :=
  if place.isEmpty then some .directory else tree.entries[place]?

/-- Whether a path leads from the topmost directory. -/
def isAbsolute (path : Text) : Bool := path.head? == some separator

/-- The place from which a path leads. -/
def start (tree : FileTree) (path : Text) : List Text :=
  if isAbsolute path then [] else tree.workingDirectory

/-- Where a name leads to from a place, if that is a directory. -/
def follow (tree : FileTree) (place : List Text) (name : Text) : Option (List Text) :=
  if tree.entryAt? place = some .directory then
    if name = [] ∨ name = ".".toList then some place
    else if name = "..".toList then some place.dropLast
    else some (place ++ [name])
  else none

/-- The place that a path leads to. -/
def locate? (tree : FileTree) (path : Text) : Option (List Text) :=
  if path.isEmpty || pathLimit ≤ path.utf8.length then none
  else (path.splitOn separator).foldlM tree.follow (tree.start path)

/-- The content of the file that a path leads to. -/
def file? (tree : FileTree) (path : Text) : Option Source :=
  (tree.locate? path).bind fun place =>
    match tree.entryAt? place with
    | some (.file content) => some content
    | _ => none

/-- Puts an entry at a place. -/
def put (tree : FileTree) (place : List Text) (entry : FileEntry) : FileTree :=
  { tree with entries := tree.entries.insert place entry }

/-- Follows a name and creates a directory if nothing is there. -/
def enter (here : FileTree × List Text) (name : Text) : FileTree × List Text :=
  let (tree, place) := here
  if name = [] ∨ name = ".".toList then (tree, place)
  else if name = "..".toList then (tree, place.dropLast)
  else
    let below := place ++ [name]
    if (tree.entryAt? below).isSome then (tree, below) else (tree.put below .directory, below)

/-- Creates the directories along names. -/
def enterAll (tree : FileTree) (place : List Text) (names : List Text) : FileTree × List Text :=
  names.foldl enter (tree, place)

/-- A tree that has only a working directory and the directories above it. -/
def withWorkingDirectory (path : Text) : FileTree :=
  let (tree, place) := enterAll ⟨∅, []⟩ [] (path.splitOn separator)
  { tree with workingDirectory := place }

/-- Creates a directory and those above it. -/
def addDirectory (tree : FileTree) (path : Text) : FileTree :=
  (tree.enterAll (tree.start path) (path.splitOn separator)).1

/-- Creates a file and the directories above it. -/
def addFile (tree : FileTree) (path : Text) (content : Source) : FileTree :=
  let names := path.splitOn separator
  let (tree, place) := tree.enterAll (tree.start path) names.dropLast
  tree.put (place ++ [names.getLastD []]) (.file content)

end FileTree

end ResourceLookup
