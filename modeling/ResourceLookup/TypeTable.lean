import Std.Data.ExtTreeMap
import ResourceLookup.Hierarchy

/-!
# Type tables

A type table declares, for type names, a superclass and the interfaces implemented directly.
Nothing keeps the declarations from running in circles, so the chain of superclasses of a type
ends at a type without superclass or just before the first type that it would repeat.

The ancestry of a type lists the names under which a resource for it may be stored, nearest
first: the type, its interfaces in the order of declaration, its superclass, and so on up the
chain.
-/

namespace ResourceLookup

/-- The declared supertypes of a type. -/
structure TypeDeclaration where
  superclass : Option Text
  interfaces : List Text
deriving DecidableEq, Repr

/-- The declarations of all types, by name. -/
structure TypeTable where
  declarations : Std.ExtTreeMap Text TypeDeclaration compare

namespace TypeTable

/-- The table without declarations. -/
def empty : TypeTable := ⟨∅⟩

instance : Inhabited TypeTable := ⟨empty⟩

/-- Declares a type, in place of an earlier declaration of the same name. -/
def declare (table : TypeTable) (name : Text) (superclass : Option Text)
    (interfaces : List Text) : TypeTable :=
  ⟨table.declarations.insert name ⟨superclass, interfaces⟩⟩

/-- The superclass of a type. -/
def superclass (table : TypeTable) (name : Text) : Option Text :=
  table.declarations[name]?.bind (·.superclass)

/-- The interfaces that a type declares, in order. -/
def interfaces (table : TypeTable) (name : Text) : List Text :=
  (table.declarations[name]?.map (·.interfaces)).getD []

/-- Climbs from a type to its superclasses, at most `fuel` types, and stops before a type that
was seen on the way. -/
def climb (table : TypeTable) (seen : List Text) : Nat → Text → List Text
  | 0, _ => []
  | fuel + 1, name =>
    if seen.contains name then []
    else
      name :: match table.superclass name with
        | none => []
        | some parent => climb table (name :: seen) fuel parent

/-- A type and its superclasses, upwards. Each type but the last is declared, so that the chain
has at most one more member than there are declarations. -/
def lineage (table : TypeTable) (name : Text) : List Text :=
  table.climb [] (table.declarations.size + 1) name

/-- Adds a name at the end unless it is already listed. -/
def addNew (names : List Text) (name : Text) : List Text :=
  if names.contains name then names else names ++ [name]

/-- The names under which a resource for a type may be stored, nearest first. -/
def ancestry (table : TypeTable) (name : Text) : List Text :=
  (table.lineage name).foldl
    (fun names type => (table.interfaces type).foldl addNew (names ++ [type])) []

/-- A table as a hierarchy. -/
def hierarchy (table : TypeTable) : Hierarchy := ⟨table.ancestry⟩

instance : Coe TypeTable Hierarchy := ⟨hierarchy⟩

theorem superclass_declare (table : TypeTable) (name other : Text) (superclass : Option Text)
    (interfaces : List Text) :
    (table.declare name superclass interfaces).superclass other =
      if name = other then superclass else table.superclass other := by
  simp only [TypeTable.superclass, declare, Std.ExtTreeMap.getElem?_insert]
  split <;> simp_all

theorem interfaces_declare (table : TypeTable) (name other : Text) (superclass : Option Text)
    (interfaces : List Text) :
    (table.declare name superclass interfaces).interfaces other =
      if name = other then interfaces else table.interfaces other := by
  simp only [TypeTable.interfaces, declare, Std.ExtTreeMap.getElem?_insert]
  split <;> simp_all

end TypeTable

end ResourceLookup
