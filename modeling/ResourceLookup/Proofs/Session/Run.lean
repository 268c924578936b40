import ResourceLookup.Proofs.Store.Growth
import ResourceLookup.Session.Basic

/-!
# Runs

A session keeps a journal of what its operations store under which absolute keys, since the last
reset. The journal is told from the operations, the names of objects and the files that are read.
`grown_run` says that the tree after any run is made by the writes of its journal.
-/

namespace ResourceLookup

namespace Session

/-- What an operation stores. A key relative to an object is taken below the name of the object,
and a dead or nameless one has none. -/
def journalOf (s : Session) : Operation → Journal
  | .insert raw value => .entry (Key.parse raw) value.toStored
  | .insertList raw values => .entry (Key.parse raw) (Value.joinTexts values)
  | .insertRelative o raw value =>
    match s.objects.typeOf? o, s.store.registry.nameOf? s.objects.isAlive o with
    | some _, some name => .entry ((Key.parse name).bind (·.join raw)) value.toStored
    | _, _ => []
  | .insertPairs pairs => .ofEntries (pairs.map fun p => ⟨p.1, p.2.toStored⟩)
  | .readResources source => .ofEntries source.entries
  | .loadFile name => .ofEntries (s.loader.entries name)
  | .loadFiles name => .ofEntries (s.loader.allEntries s.store s.objects name)
  | _ => []

/-- The journal after an operation. -/
def record (s : Session) (journal : Journal) : Operation → Journal
  | .reset => []
  | op => journal ++ s.journalOf op

/-- The journal after operations in order. -/
def recordAll (s : Session) (journal : Journal) : List Operation → Journal
  | [] => journal
  | op :: rest => (s.step op).1.recordAll (s.record journal op) rest

/-- The journal of operations on an empty store. -/
def journal (s : Session) (operations : List Operation) : Journal := s.recordAll [] operations

variable {s : Session} {journal : Journal}

theorem record_of_ne_reset {op : Operation} (h : op ≠ .reset) :
    s.record journal op = journal ++ s.journalOf op := by
  cases op with
  | reset => exact absurd rfl h
  | _ => rfl

theorem store_attempt (s : Session) (outcome : Except Error Store) :
    (s.attempt outcome).1.store = outcome.toOption.getD s.store := by
  cases outcome <;> rfl

theorem extends_withObject {o : ObjectId} {act : Text → Session × Logged Reply} {added : Journal}
    (dead : s.objects.typeOf? o = none → added = [])
    (h : ∀ typeName, s.objects.typeOf? o = some typeName →
      s.store.Extends (act typeName).1.store added) :
    s.store.Extends (s.withObject o act).1.store added := by
  rw [withObject]
  cases alive : s.objects.typeOf? o with
  | none => exact dead alive ▸ s.store.extends_self
  | some typeName => exact h typeName alive

/-- An operation other than a reset stores what it adds to the journal. -/
theorem extends_step {op : Operation} (h : op ≠ .reset) :
    s.store.Extends (s.step op).1.store (s.journalOf op) := by
  cases op with
  | insert raw value =>
    rw [step, store_attempt]
    exact s.store.extends_insertText raw value.toStored
  | insertList raw values =>
    rw [step, store_attempt]
    exact s.store.extends_insertText raw (Value.joinTexts values)
  | insertRelative o raw value =>
    rw [step, journalOf]
    apply extends_withObject (fun dead => by rw [dead])
    intro typeName alive
    rw [store_attempt, alive]
    cases named : s.store.registry.nameOf? s.objects.isAlive o with
    | none =>
      rw [Store.insertRelative_of_nameOf?_eq_none named]
      exact s.store.extends_self
    | some name => exact Store.extends_insertRelative named
  | insertPairs pairs => exact s.store.extends_insertAll _
  | readResources source =>
    have read := s.store.extends_insertAll source.entries
    rwa [← Store.readResources_eq] at read
  | loadFile name =>
    have loaded := s.store.extends_insertAll (s.loader.entries name)
    rwa [← Loader.loadFile_eq] at loaded
  | loadFiles name =>
    have loaded := s.store.extends_insertAll (s.loader.allEntries s.store s.objects name)
    rwa [← Loader.loadFiles_eq] at loaded
  | reset => exact absurd rfl h
  | describe o => exact extends_withObject (fun _ => rfl) fun _ _ => s.store.extends_self
  | resolveRelative o raw =>
    exact extends_withObject (fun _ => rfl) fun _ _ => s.store.extends_resolveRelative ..
  | register name o =>
    apply extends_withObject (fun _ => rfl)
    intro typeName _
    rw [store_attempt]
    exact s.store.extends_map_registry _
  | registerChild name o parent =>
    apply extends_withObject (fun _ => rfl)
    intro typeName _
    apply extends_withObject (fun _ => rfl)
    intro _ _
    rw [store_attempt]
    exact s.store.extends_map_registry _
  | unregister o => exact extends_withObject (fun _ => rfl) fun _ _ => s.store.extends_registry _
  | unregisterAll => exact s.store.extends_registry _
  | _ => exact s.store.extends_self

theorem grown_step (h : s.store.tree.Grown journal.writes) (op : Operation) :
    (s.step op).1.store.tree.Grown (s.record journal op).writes := by
  by_cases reset : op = .reset
  · subst reset
    exact .empty
  · rw [record_of_ne_reset reset, Journal.writes_append]
    exact (extends_step reset).grown h

/-- The hierarchy of types stays the same throughout. -/
theorem hierarchy_step (s : Session) (op : Operation) :
    (s.step op).1.store.hierarchy = s.store.hierarchy := by
  by_cases reset : op = .reset
  · subst reset
    rfl
  · exact (extends_step reset).hierarchy_eq

theorem hierarchy_run (s : Session) (operations : List Operation) :
    (s.run operations).store.hierarchy = s.store.hierarchy := by
  induction operations generalizing s with
  | nil => rfl
  | cons op rest ih => exact (ih (s.step op).1).trans (hierarchy_step s op)

/-- The tree after a run is made by the writes of the journal. -/
theorem grown_recordAll (h : s.store.tree.Grown journal.writes) (operations : List Operation) :
    (s.run operations).store.tree.Grown (s.recordAll journal operations).writes := by
  induction operations generalizing s journal with
  | nil => exact h
  | cons op rest ih => exact ih (grown_step h op)

theorem grown_run (hierarchy : Hierarchy) (loader : Loader) (operations : List Operation) :
    ((start hierarchy loader).run operations).store.tree.Grown
      ((start hierarchy loader).journal operations).writes :=
  grown_recordAll .empty operations

end Session

end ResourceLookup
