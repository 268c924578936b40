import ResourceLookup.Lookup.Search
import ResourceLookup.Registry.Basic
import ResourceLookup.TypeTable
import ResourceLookup.Value

/-!
# The resource store

A store holds resources in a tree, a registry of objects, and the hierarchy of types that
searches consult. Every operation reads its key first, so that a malformed key fails before
anything is changed; the error gives the key as it was handed in.
-/

namespace ResourceLookup

/-- Resources, registered objects and the hierarchy of types. -/
structure Store where
  tree : Tree
  registry : Registry
  hierarchy : Hierarchy

namespace Store

/-- A store without resources and registrations. -/
def new (hierarchy : Hierarchy) : Store := ⟨.empty, .empty, hierarchy⟩

instance : Inhabited Store := ⟨new TypeTable.empty⟩

/-- What a search consults while the given objects live. -/
def lookup (s : Store) (objects : Objects) : Lookup :=
  ⟨s.tree, s.hierarchy, s.registry.typeAt? objects.isAlive⟩

/-- The value that a key resolves to: that of the node found, if it holds one. -/
def find (s : Store) (objects : Objects) (key : Key) : Option Value := do
  let node ← (s.lookup objects).find key
  let stored ← (s.tree.node node).data
  Value.ofStored? stored

/-- Resolves a key. -/
def resolve (s : Store) (objects : Objects) (raw : Text) : Except Error (Option Value) :=
  (Key.parse raw).map (s.find objects)

/-- Stores a text under a key. -/
def insertText (s : Store) (raw : Text) (stored : Text) : Except Error Store :=
  (Key.parse raw).map fun key => { s with tree := s.tree.insert key stored }

/-- Stores a value under a key. -/
def insert (s : Store) (raw : Text) (value : Value) : Except Error Store :=
  s.insertText raw value.toStored

/-- Stores a list of texts under a key. -/
def insertList (s : Store) (raw : Text) (texts : List Text) : Except Error Store :=
  s.insertText raw (Value.joinTexts texts)

/-- Registers an object, with the type that it reports now. -/
def register (s : Store) (objects : Objects) (name : Text) (o : ObjectId) (typeName : Text) :
    Except Error Store :=
  (s.registry.register objects.isAlive name o typeName).map fun registry =>
    { s with registry }

/-- Registers an object below another one, with the type that it reports now. -/
def registerChild (s : Store) (objects : Objects) (name : Text) (o : ObjectId) (typeName : Text)
    (parent : ObjectId) : Except Error Store :=
  (s.registry.registerChild objects.isAlive name o typeName parent).map fun registry =>
    { s with registry }

/-- Takes the registration of an object back. -/
def unregister (s : Store) (o : ObjectId) : Store := { s with registry := s.registry.forget o }

/-- Takes every registration back. -/
def unregisterAll (s : Store) : Store := { s with registry := .empty }

/-- Discards every resource and every registration. -/
def reset (s : Store) : Store := { s with tree := .empty, registry := .empty }

/-- The lines of what is stored below an absolute name, or of everything if no node has this
name. -/
def dump (s : Store) (below : Option Text) : Text :=
  s.tree.dump ((below.bind s.tree.findPath?).getD Tree.root)

/-- A summary of the store: its nodes, the root included, and its living registered objects. -/
def summary (s : Store) (objects : Objects) : Text :=
  "ResourceStore \x7b nodes: ".toList ++ (toString s.tree.size).toList
    ++ ", objects: ".toList ++ (toString (s.registry.size objects.isAlive)).toList
    ++ " \x7d".toList

theorem resolve_of_isValid (s : Store) (objects : Objects) {raw : Text}
    (h : Key.isValid raw = true) :
    ∃ key, Key.parse raw = .ok key ∧ s.resolve objects raw = .ok (s.find objects key) :=
  ⟨_, Key.parse_of_isValid h, by rw [resolve, Key.parse_of_isValid h]; rfl⟩

theorem resolve_of_not_isValid (s : Store) (objects : Objects) {raw : Text}
    (h : Key.isValid raw = false) :
    s.resolve objects raw = .error (.malformedKey raw) := by
  rw [resolve, Key.parse_of_not_isValid h]
  rfl

end Store

end ResourceLookup
