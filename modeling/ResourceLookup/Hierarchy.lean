import ResourceLookup.Text.Basic

/-!
# Type hierarchies

A hierarchy tells which types stand in for a type: it lists the names under which a resource for
the type may be stored, nearest first. How the list comes about is up to the application; a type
table is the usual way.
-/

namespace ResourceLookup

/-- What a search asks about types. -/
structure Hierarchy where
  /-- The names under which a resource for a type may be stored, nearest first. -/
  ancestry : Text → List Text

end ResourceLookup
