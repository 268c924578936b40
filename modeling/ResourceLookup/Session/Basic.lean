import ResourceLookup.Loader.Basic
import ResourceLookup.Session.Operation
import ResourceLookup.Store.Fetch
import ResourceLookup.Store.Relative
import ResourceLookup.Text.Quoted

/-!
# Sessions

A session is a store together with the objects of the application and a loader that reads into
the store. It carries operations out one after the other, and every history of a store is a list
of operations on a session.

An operation on a dead object cannot be asked for, since nobody holds the object any more; it
does nothing.
-/

namespace ResourceLookup

/-- A store with the objects that are around and the files that it can be loaded from. -/
structure Session where
  store : Store
  objects : Objects
  loader : Loader

namespace Session

/-- A session with an empty store and no objects. -/
def start (hierarchy : Hierarchy) (loader : Loader) : Session :=
  ⟨.new hierarchy, .empty, loader⟩

/-- The description of an object by the type it reports. -/
def describe (typeName : Text) : Text :=
  "Resourced \x7b type: ".toList ++ typeName.quoted ++ " \x7d".toList

/-- The session with another store, and an answer. -/
def answer (s : Session) (store : Store) (reply : Logged Reply) : Session × Logged Reply :=
  ({ s with store }, reply)

/-- The same session, and the outcome of an operation that changes nothing. -/
def tell (s : Session) (outcome : Except Error Reply) : Session × Logged Reply :=
  (s, .quiet outcome)

/-- The session after an attempt to change the store. -/
def attempt (s : Session) : Except Error Store → Session × Logged Reply
  | .ok store => s.answer store (.quiet (.ok .done))
  | .error e => s.tell (.error e)

/-- Carries out what needs the type of a living object; it does nothing for a dead one. -/
def withObject (s : Session) (o : ObjectId) (act : Text → Session × Logged Reply) :
    Session × Logged Reply :=
  match s.objects.typeOf? o with
  | none => s.tell (.ok .done)
  | some typeName => act typeName

/-- Carries an operation out. -/
def step (s : Session) : Operation → Session × Logged Reply
  | .create typeName =>
    let (objects, o) := s.objects.create typeName
    ({ s with objects }, .quiet (.ok (.created o)))
  | .setType o typeName =>
    ({ s with objects := s.objects.setType o typeName }, .quiet (.ok .done))
  | .drop o => ({ s with objects := s.objects.drop o }, .quiet (.ok .done))
  | .describe o => s.withObject o fun typeName => s.tell (.ok (.text (describe typeName)))
  | .resolve key => s.tell ((s.store.resolve s.objects key).map .value)
  | .resolveRelative o key => s.withObject o fun typeName =>
    let (store, outcome) := s.store.resolveRelative s.objects o typeName key
    s.answer store (.quiet (outcome.map .value))
  | .insert key value => s.attempt (s.store.insert key value)
  | .insertList key values => s.attempt (s.store.insertList key values)
  | .insertRelative o key value => s.withObject o fun typeName =>
    s.attempt (s.store.insertRelative s.objects o typeName key value)
  | .insertPairs pairs =>
    let (store, report) := s.store.insertAll (pairs.map fun p => ⟨p.1, p.2.toStored⟩)
    s.answer store ⟨.ok (.report report), report.warnings⟩
  | .readResources source =>
    let (store, result) := s.store.readResources source
    s.answer store (result.map .report)
  | .register name o => s.withObject o fun typeName =>
    s.attempt (s.store.register s.objects name o typeName)
  | .registerChild name o parent => s.withObject o fun typeName => s.withObject parent fun _ =>
    s.attempt (s.store.registerChild s.objects name o typeName parent)
  | .unregister o => s.withObject o fun _ =>
    s.answer (s.store.unregister o) (.quiet (.ok .done))
  | .unregisterAll => s.answer s.store.unregisterAll (.quiet (.ok .done))
  | .reset => s.answer s.store.reset (.quiet (.ok .done))
  | .lookupName o => s.tell (.ok (.name (s.store.registry.nameOf? s.objects.isAlive o)))
  | .lookupObject name =>
    s.tell (.ok (.object (s.store.registry.objectAt? s.objects.isAlive name)))
  | .dump below => s.tell (.ok (.text (s.store.dump below)))
  | .writeResources header sink => s.tell ((s.store.writeResources header sink).map .text)
  | .summary => s.tell (.ok (.text (s.store.summary s.objects)))
  | .isValidKey key => s.tell (.ok (.flag (Key.isValid key)))
  | .isValidName name => s.tell (.ok (.flag (isValidName name)))
  | .fetchInt key default => s.tell ((s.store.fetchInt s.objects key default).map .integer)
  | .fetchFloat key default => s.tell ((s.store.fetchFloat s.objects key default).map .float)
  | .fetchBool key default => s.tell ((s.store.fetchBool s.objects key default).map .flag)
  | .loadFiles name =>
    let (store, result) := s.loader.loadFiles s.store s.objects name
    s.answer store (result.map .report)
  | .loadFile name =>
    let (store, result) := s.loader.loadFile s.store name
    s.answer store (result.map .report)
  | .locate name => s.tell (.ok (.name (s.loader.locate? name)))
  | .loaderConfig => s.tell (.ok (.config s.loader.config))

/-- Carries operations out in order. -/
def run (s : Session) (operations : List Operation) : Session :=
  operations.foldl (fun s op => (s.step op).1) s

/-- The answers to operations carried out in order. -/
def replies (s : Session) : List Operation → List (Logged Reply)
  | [] => []
  | op :: rest =>
    let (next, reply) := s.step op
    reply :: next.replies rest

@[simp] theorem run_nil (s : Session) : s.run [] = s := rfl

@[simp] theorem run_cons (s : Session) (op : Operation) (rest : List Operation) :
    s.run (op :: rest) = (s.step op).1.run rest := rfl

theorem run_append (s : Session) (before after : List Operation) :
    s.run (before ++ after) = (s.run before).run after := by
  simp [run]

end Session

end ResourceLookup
