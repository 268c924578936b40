import ResourceLookup.Loader.Config
import ResourceLookup.Loader.FileTree
import ResourceLookup.Store.Bulk

/-!
# Loading configuration files

A loader reads property files into a store: the file it is asked for, and then the files that a
resource of the store names once this first one has been read. The first file must be found; a
further one that is not found is passed over, with a warning if the loader is verbose.

What was stored before a failure remains stored.
-/

namespace ResourceLookup

/-- A configuration together with the files that can be read. -/
structure Loader where
  config : LoaderConfig
  files : FileTree

namespace Loader

/-- A name below a directory. -/
def joinPath (directory name : Text) : Text :=
  if directory.isEmpty || directory.getLast? == some FileTree.separator then directory ++ name
  else directory ++ FileTree.separator :: name

/-- The paths under which a file is looked for, in order. -/
def candidates (l : Loader) (name : Text) : List Text :=
  if FileTree.isAbsolute name then [name] else l.config.searchPaths.map (joinPath · name)

/-- The first path under which there is a file. -/
def locate? (l : Loader) (name : Text) : Option Text :=
  (l.candidates name).find? fun path => (l.files.file? path).isSome

/-- Loads a file. -/
def loadFile (l : Loader) (s : Store) (name : Text) : Store × Logged Report :=
  match (l.locate? name).bind l.files.file? with
  | none => (s, .quiet (.error (.configNotFound name)))
  | some content => s.readResources content

/-- Loads further files one after the other, to complete a report. -/
def loadChain (l : Loader) (s : Store) (report : Report) : List Text → Store × Logged Report
  | [] => (s, .quiet (.ok report))
  | name :: rest =>
    match l.loadFile s name with
    | (s, ⟨.ok loaded, warnings⟩) =>
      let (s, result) := l.loadChain s (report.merge loaded) rest
      (s, result.after warnings)
    | (s, ⟨.error (.configNotFound missing), warnings⟩) =>
      let notFound := if l.config.verbose then [.chainedFileNotFound missing] else []
      let (s, result) := l.loadChain s report rest
      (s, result.after (warnings ++ notFound))
    | (s, ⟨.error e, warnings⟩) => (s, ⟨.error e, warnings⟩)

/-- The files that a store names for loading. -/
def chained (l : Loader) (s : Store) (objects : Objects) : Except Error (List Text) :=
  match l.config.chainProperty with
  | none => .ok []
  | some property =>
    (s.resolve objects property).map fun value => (value.map Value.toList).getD []

/-- Loads a file and then those that the store names. -/
def loadFiles (l : Loader) (s : Store) (objects : Objects) (initial : Text) :
    Store × Logged Report :=
  match l.loadFile s initial with
  | (s, ⟨.error e, warnings⟩) => (s, ⟨.error e, warnings⟩)
  | (s, ⟨.ok report, warnings⟩) =>
    match l.chained s objects with
    | .error e => (s, ⟨.error e, warnings⟩)
    | .ok names =>
      let (s, result) := l.loadChain s report names
      (s, result.after warnings)

end Loader

end ResourceLookup
