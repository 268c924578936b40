import ResourceLookup.Store.Basic

/-!
# Relative keys

A key can be taken relative to an object. The name of a registered object comes in front of the
key. An object without a name is registered under a reserved one as long as the lookup takes, so
that its type takes part in the search; nothing can be stored relative to it.
-/

namespace ResourceLookup.Store

/-- A relative key below a name. -/
def below (name relative : Text) : Text := name ++ Binding.tight.delimiter :: relative

/-- Resolves a key relative to an object of the given type. -/
def resolveRelative (s : Store) (objects : Objects) (o : ObjectId) (typeName raw : Text) :
    Store × Except Error (Option Value) :=
  if Key.isValid raw then
    match s.registry.nameOf? objects.isAlive o with
    | some name => (s, s.resolve objects (below name raw))
    | none =>
      let probed :=
        { s with registry := s.registry.record objects.isAlive probeName o typeName }
      (probed.unregister o, probed.resolve objects (below probeName raw))
  else (s, .error (.malformedKey raw))

/-- Stores a value under a key relative to a registered object. If a node has the name of the
object, the steps of the key lead on from there. -/
def insertRelative (s : Store) (objects : Objects) (o : ObjectId) (typeName raw : Text)
    (value : Value) : Except Error Store := do
  let relative ← Key.parse raw
  match s.registry.nameOf? objects.isAlive o with
  | none => throw (.unregisteredObject typeName)
  | some name =>
    match s.tree.findPath? name with
    | some start => return { s with tree := (s.tree.insertAt start relative value.toStored).1 }
    | none =>
      let key ← (← Key.parse name).join raw
      return { s with tree := s.tree.insert key value.toStored }

end ResourceLookup.Store
