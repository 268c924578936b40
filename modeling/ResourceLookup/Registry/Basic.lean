import ResourceLookup.Error
import ResourceLookup.Key.Segment
import ResourceLookup.Registry.Objects

/-!
# The object registry

The registry says which object stands where: it has a name for each registered object, and for
each name the object that was registered under it first, with the type the object had then. It
does not keep objects alive. What it has on record about a dead object is never told, and it
goes away when the next registration is made or when the registry is pruned.
-/

namespace ResourceLookup

/-- The object that a name leads to, with its type at the time of registration. -/
structure Owner where
  object : ObjectId
  typeName : Text
deriving DecidableEq, Repr

/-- The names of objects and the objects behind names. -/
structure Registry where
  names : Std.ExtTreeMap ObjectId Text compare
  owners : Std.ExtTreeMap Text Owner compare

namespace Registry

/-- The registry without entries. -/
def empty : Registry := ⟨∅, ∅⟩

instance : Inhabited Registry := ⟨empty⟩

section Answers

variable (alive : ObjectId → Bool)

/-- The name of an object, if it has one and lives. -/
def nameOf? (r : Registry) (o : ObjectId) : Option Text :=
  if alive o then r.names[o]? else none

/-- What is recorded under a name, if its object lives. -/
def ownerOf? (r : Registry) (name : Text) : Option Owner :=
  r.owners[name]?.filter fun owner => alive owner.object

/-- The living object behind a name. -/
def objectAt? (r : Registry) (name : Text) : Option ObjectId :=
  (r.ownerOf? alive name).map (·.object)

/-- The recorded type of the living object behind a name. -/
def typeAt? (r : Registry) (name : Text) : Option Text :=
  (r.ownerOf? alive name).map (·.typeName)

/-- The number of living objects that have a name. -/
def size (r : Registry) : Nat := (r.names.filter fun o _ => alive o).size

end Answers

/-- Forgets what is recorded about dead objects. -/
def prune (r : Registry) (alive : ObjectId → Bool) : Registry where
  names := r.names.filter fun o _ => alive o
  owners := r.owners.filter fun _ owner => alive owner.object

/-- Records a name for an object, whatever the name. A name that a living object has keeps that
object. -/
def record (r : Registry) (alive : ObjectId → Bool) (name : Text) (o : ObjectId)
    (typeName : Text) : Registry :=
  let kept := r.prune alive
  { names := kept.names.insert o name
    owners := kept.owners.insertIfNew name ⟨o, typeName⟩ }

/-- Forgets the name of an object, and the object behind that name if it is the same. -/
def forget (r : Registry) (o : ObjectId) : Registry :=
  match r.names[o]? with
  | none => r
  | some name =>
    { names := r.names.erase o
      owners :=
        if r.owners[name]?.any (·.object == o) then r.owners.erase name else r.owners }

/-- Registers an object under a name, or under a path of names joined by tight delimiters. -/
def register (r : Registry) (alive : ObjectId → Bool) (name : Text) (o : ObjectId)
    (typeName : Text) : Except Error Registry :=
  if isValidPath name then .ok (r.record alive name o typeName) else .error (.invalidName name)

/-- Registers an object under a single name below that of its parent. -/
def registerChild (r : Registry) (alive : ObjectId → Bool) (name : Text) (o : ObjectId)
    (typeName : Text) (parent : ObjectId) : Except Error Registry :=
  if isValidName name then
    match r.nameOf? alive parent with
    | some parentName => .ok (r.record alive (parentName ++ '.' :: name) o typeName)
    | none => .error (.unregisteredParent name)
  else .error (.invalidName name)

end Registry

end ResourceLookup
