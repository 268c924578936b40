import ResourceLookup.Proofs.Store.Bulk
import ResourceLookup.Proofs.Store.Journal
import ResourceLookup.Proofs.Tree.Consistency
import ResourceLookup.Store.Relative

/-!
# What stores leave in trees

Whatever is done with a store short of a reset extends it: its tree grows by the writes of a
journal, perhaps of none, and the hierarchy of types stays the same.
-/

namespace ResourceLookup

namespace Tree

variable {t : Tree} {log : List Write}

theorem stepsAt_root {ways : List (List Step)} (h : Charted t ways) : t.stepsAt root = [] :=
  h.stepsAt_eq h.root_way

/-- Storing a text under an absolute key. -/
theorem Grown.insert (h : Grown t log) (key : Key) (value : Text) :
    Grown (t.insert key value) (log ++ Journal.writes [(key, value)]) := by
  obtain ⟨ways, represents⟩ := h.represents
  have inside : root < t.size := represents.lt_size represents.root_way
  have next := h.insertAt inside key value
  rwa [stepsAt_root represents.toCharted] at next

/-- A node that is found by its absolute name stands at the end of the way that the name spells. -/
theorem Grown.stepsAt_of_findPath? (h : Grown t log) {name : Text} {i : NodeIndex}
    (found : t.findPath? name = some i) :
    i < t.size ∧ ∃ key, Key.parse name = .ok key ∧ t.stepsAt i = key.steps := by
  obtain ⟨ways, represents⟩ := h.represents
  obtain ⟨inside, below, named⟩ := represents.findPath?_eq_some_iff.1 found
  obtain ⟨key, text, -⟩ := represents.absoluteName_spells inside below
  obtain rfl : key.text = name := Option.some.inj (text.symm.trans named)
  refine ⟨inside, key, key.parse_text, ?_⟩
  rw [stepsAt, text]
  rfl

end Tree

namespace Store

/-- A store from which another one has come about by storing what a journal lists. -/
structure Extends (s next : Store) (added : Journal) : Prop where
  hierarchy_eq : next.hierarchy = s.hierarchy
  grown : ∀ {log}, s.tree.Grown log → next.tree.Grown (log ++ added.writes)

variable {s next last : Store} {added more : Journal}

/-- Registering is not storing. -/
theorem extends_registry (s : Store) (registry : Registry) : s.Extends { s with registry } [] :=
  ⟨rfl, fun {log} h => (List.append_nil log).symm ▸ h⟩

theorem extends_self (s : Store) : s.Extends s [] := s.extends_registry s.registry

theorem extends_insert (s : Store) (key : Key) (value : Text) :
    s.Extends { s with tree := s.tree.insert key value } [(key, value)] :=
  ⟨rfl, fun h => h.insert key value⟩

theorem Extends.trans (h : s.Extends next added) (h' : next.Extends last more) :
    s.Extends last (added ++ more) := by
  refine ⟨h'.hierarchy_eq.trans h.hierarchy_eq, ?_⟩
  intro log grown
  rw [Journal.writes_append, ← List.append_assoc]
  exact h'.grown (h.grown grown)

theorem extends_insertText (s : Store) (raw value : Text) :
    s.Extends ((s.insertText raw value).toOption.getD s) (.entry (Key.parse raw) value) := by
  rw [insertText]
  cases Key.parse raw with
  | ok key => exact s.extends_insert key value
  | error e => exact s.extends_self

section Relative

variable {objects : Objects} {o : ObjectId} {name raw : Text} {typeName : Text} {value : Value}

theorem insertRelative_of_not_isValid (invalid : Key.isValid raw = false) :
    s.insertRelative objects o typeName raw value = .error (.malformedKey raw) := by
  rw [insertRelative, Key.parse_of_not_isValid invalid]
  rfl

theorem insertRelative_of_nameOf?_eq_none
    (nameless : s.registry.nameOf? objects.isAlive o = none) :
    (s.insertRelative objects o typeName raw value).toOption = none := by
  simp only [insertRelative, nameless, bind, Except.bind]
  cases Key.parse raw <;> rfl

theorem insertRelative_of_findPath? {relative : Key} {start : NodeIndex}
    (read : Key.parse raw = .ok relative)
    (named : s.registry.nameOf? objects.isAlive o = some name)
    (found : s.tree.findPath? name = some start) :
    s.insertRelative objects o typeName raw value =
      .ok { s with tree := (s.tree.insertAt start relative value.toStored).1 } := by
  simp only [insertRelative, read, named, bind, Except.bind, found]
  rfl

theorem insertRelative_of_findPath?_eq_none {relative : Key} (read : Key.parse raw = .ok relative)
    (named : s.registry.nameOf? objects.isAlive o = some name)
    (absent : s.tree.findPath? name = none) :
    s.insertRelative objects o typeName raw value =
      ((Key.parse name).bind (·.join raw)).map
        fun key => { s with tree := s.tree.insert key value.toStored } := by
  simp only [insertRelative, read, named, bind, Except.bind, absent]
  cases Key.parse name with
  | error e => rfl
  | ok key => cases key.join raw <;> rfl

/-- Nothing tells whether a relative key was stored below a node or under the absolute key. -/
theorem extends_insertRelative (named : s.registry.nameOf? objects.isAlive o = some name) :
    s.Extends ((s.insertRelative objects o typeName raw value).toOption.getD s)
      (.entry ((Key.parse name).bind (·.join raw)) value.toStored) := by
  cases valid : Key.isValid raw with
  | false =>
    have refused : Journal.entry ((Key.parse name).bind (·.join raw)) value.toStored = [] := by
      cases Key.parse name with
      | error e => rfl
      | ok key => exact congrArg (Journal.entry · _) (key.join_of_not_isValid valid)
    rw [insertRelative_of_not_isValid valid, refused]
    exact s.extends_self
  | true =>
    have readRelative := Key.parse_of_isValid valid
    cases found : s.tree.findPath? name with
    | some start =>
      rw [insertRelative_of_findPath? readRelative named found]
      refine ⟨rfl, ?_⟩
      intro log grown
      obtain ⟨inside, key, read, way⟩ := grown.stepsAt_of_findPath? found
      obtain ⟨joined, join, steps⟩ := key.steps_join readRelative
      have absolute : (Key.parse name).bind (·.join raw) = .ok joined := by
        rw [read]
        exact join
      rw [absolute, Journal.entry, Journal.writes, List.map_singleton, steps, ← way]
      exact grown.insertAt inside _ value.toStored
    | none =>
      rw [insertRelative_of_findPath?_eq_none readRelative named found]
      cases (Key.parse name).bind (·.join raw) with
      | error e => exact s.extends_self
      | ok key => exact s.extends_insert key value.toStored

end Relative

theorem extends_insertAll (s : Store) (entries : List Entry) :
    s.Extends (s.insertAll entries).1 (.ofEntries entries) := by
  rw [insertAll_eq]
  induction entries generalizing s with
  | nil => exact s.extends_self
  | cons e entries ih =>
    have first := s.extends_insertText e.key e.value
    rw [← insertEntry_eq] at first
    exact first.trans (ih _)

theorem extends_resolveRelative (s : Store) (objects : Objects) (o : ObjectId)
    (typeName raw : Text) : s.Extends (s.resolveRelative objects o typeName raw).1 [] := by
  rw [resolveRelative]
  split
  · cases s.registry.nameOf? objects.isAlive o with
    | some name => exact s.extends_self
    | none => exact s.extends_registry _
  · exact s.extends_self

/-- An attempt to register changes the registry or nothing. -/
theorem extends_map_registry (s : Store) (outcome : Except Error Registry) :
    s.Extends ((outcome.map fun registry => { s with registry }).toOption.getD s) [] := by
  cases outcome with
  | error e => exact s.extends_self
  | ok registry => exact s.extends_registry registry

end Store

end ResourceLookup
