import ResourceLookup.Text.Basic

/-!
# Errors and warnings

An operation fails for one of six causes, each with the text that tells about it. What goes
wrong without making an operation fail is reported as a warning, in the order of the events.
-/

namespace ResourceLookup

/-- Why an operation failed. -/
inductive Error where
  /-- The key is not well formed. It is given as it was handed in. -/
  | malformedKey (key : Text)
  /-- The name cannot be used for a registration. -/
  | invalidName (name : Text)
  /-- The parent of a child to be registered has no name. -/
  | unregisteredParent (child : Text)
  /-- The object has no name; its type is given. -/
  | unregisteredObject (typeName : Text)
  /-- No configuration file of this name was found. -/
  | configNotFound (name : Text)
  /-- Reading or writing a stream failed. -/
  | io (cause : Text)
deriving DecidableEq, Repr

namespace Error

/-- The text that tells about an error. -/
def message : Error → Text
  | malformedKey key => "Resource key '".toList ++ key ++ "' is ill-formed".toList
  | invalidName name => "Invalid registration name '".toList ++ name ++ "'".toList
  | unregisteredParent child =>
    "Parent object is not registered (child name '".toList ++ child ++ "')".toList
  | unregisteredObject typeName => "Object is not registered: ".toList ++ typeName
  | configNotFound name => "Config file not found: ".toList ++ name
  | io cause => "IO error: ".toList ++ cause

end Error

/-- What was passed over without failing. -/
inductive Warning where
  /-- The property on this line was skipped: these characters follow a `\u` without naming a
  character. -/
  | malformedEscape (line : Nat) (digits : Text)
  /-- A resource was skipped because its key is not well formed. -/
  | malformedKey (key : Text)
  /-- A configuration file that another one names was not found. -/
  | chainedFileNotFound (name : Text)
deriving DecidableEq, Repr

namespace Warning

/-- The text that tells about a warning. -/
def message : Warning → Text
  | malformedEscape line digits =>
    "skipping property: Properties parse error at line ".toList ++ (toString line).toList
      ++ ": malformed \\u escape '\\u".toList ++ digits ++ "'".toList
  | malformedKey key => "skipping resource: ".toList ++ (Error.malformedKey key).message
  | chainedFileNotFound name =>
    "chained config file ".toList ++ name ++ " could not be located".toList

end Warning

/-- The outcome of an operation together with the warnings that it gave, failed or not. -/
structure Logged (α : Type) where
  outcome : Except Error α
  warnings : List Warning

namespace Logged

/-- An outcome without warnings. -/
def quiet {α : Type} (outcome : Except Error α) : Logged α := ⟨outcome, []⟩

/-- The same outcome after earlier warnings. -/
def after {α : Type} (earlier : List Warning) (logged : Logged α) : Logged α :=
  { logged with warnings := earlier ++ logged.warnings }

/-- The outcome in another form. -/
def map {α β : Type} (f : α → β) (logged : Logged α) : Logged β :=
  ⟨logged.outcome.map f, logged.warnings⟩

end Logged

end ResourceLookup
