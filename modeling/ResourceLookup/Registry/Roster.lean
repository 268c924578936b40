import ResourceLookup.Registry.Basic

/-!
# Rosters

A roster is a registry together with the objects it speaks about. Its operations are what an
application can do: let objects come into being, change their type and die, register them and
ask for them. Every history of a roster is a list of operations.

An operation on a dead object cannot be asked for, since nobody holds the object any more; it
does nothing.
-/

namespace ResourceLookup

/-- Objects and what is registered about them. -/
structure Roster where
  objects : Objects
  registry : Registry

namespace Roster

/-- What can be done with a roster. -/
inductive Operation where
  | create (typeName : Text)
  | setType (o : ObjectId) (typeName : Text)
  | drop (o : ObjectId)
  | register (name : Text) (o : ObjectId)
  | registerChild (name : Text) (o parent : ObjectId)
  | unregister (o : ObjectId)
  | clear
  | prune
  | nameOf (o : ObjectId)
  | objectAt (name : Text)
  | typeAt (name : Text)
deriving DecidableEq, Repr

/-- The answer to an operation. -/
inductive Reply where
  | done
  | created (o : ObjectId)
  | failed (error : Error)
  | text (value : Option Text)
  | object (o : Option ObjectId)
deriving DecidableEq, Repr

/-- No objects and no registrations. -/
def empty : Roster := ⟨.empty, .empty⟩

instance : Inhabited Roster := ⟨empty⟩

/-- The number of living registered objects. -/
def size (r : Roster) : Nat := r.registry.size r.objects.isAlive

/-- The roster after an attempt to change the registry, and whether it failed. -/
def attempt (r : Roster) : Except Error Registry → Roster × Reply
  | .ok registry => ({ r with registry }, .done)
  | .error e => (r, .failed e)

/-- Carries an operation out. -/
def step (r : Roster) : Operation → Roster × Reply
  | .create typeName =>
    let (objects, o) := r.objects.create typeName
    ({ r with objects }, .created o)
  | .setType o typeName => ({ r with objects := r.objects.setType o typeName }, .done)
  | .drop o => ({ r with objects := r.objects.drop o }, .done)
  | .register name o =>
    match r.objects.typeOf? o with
    | none => (r, .done)
    | some typeName => r.attempt (r.registry.register r.objects.isAlive name o typeName)
  | .registerChild name o parent =>
    match r.objects.typeOf? o, r.objects.typeOf? parent with
    | some typeName, some _ =>
      r.attempt (r.registry.registerChild r.objects.isAlive name o typeName parent)
    | _, _ => (r, .done)
  | .unregister o =>
    if r.objects.isAlive o then ({ r with registry := r.registry.forget o }, .done)
    else (r, .done)
  | .clear => ({ r with registry := .empty }, .done)
  | .prune => ({ r with registry := r.registry.prune r.objects.isAlive }, .done)
  | .nameOf o => (r, .text (r.registry.nameOf? r.objects.isAlive o))
  | .objectAt name => (r, .object (r.registry.objectAt? r.objects.isAlive name))
  | .typeAt name => (r, .text (r.registry.typeAt? r.objects.isAlive name))

/-- Carries operations out in order. -/
def run (r : Roster) (operations : List Operation) : Roster :=
  operations.foldl (fun r op => (r.step op).1) r

/-- The answers to operations carried out in order, each with the size of the roster after it.
-/
def replies (r : Roster) : List Operation → List (Reply × Nat)
  | [] => []
  | op :: rest =>
    let (next, reply) := r.step op
    (reply, next.size) :: next.replies rest

@[simp] theorem run_nil (r : Roster) : r.run [] = r := rfl

@[simp] theorem run_cons (r : Roster) (op : Operation) (rest : List Operation) :
    r.run (op :: rest) = (r.step op).1.run rest := rfl

theorem run_append (r : Roster) (before after : List Operation) :
    r.run (before ++ after) = (r.run before).run after := by
  simp [run]

end Roster

end ResourceLookup
