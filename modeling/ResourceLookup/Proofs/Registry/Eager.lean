import ResourceLookup.Proofs.Registry.Pruning
import ResourceLookup.Registry.Roster

/-!
# Eager rosters

An eager roster hears of every death at once: it deletes the name of the object and every entry that
the object owns, so that its table speaks of the living alone and no answer has to ask who lives.
The registry, which does not hear of deaths and prunes only now and then, gives the same answers.
`Roster.eager` takes a roster to the eager one that it stands for, and one operation after the other
keeps the two together.
-/

namespace ResourceLookup

namespace Registry

/-- Deletes the name of an object and every entry that it owns. -/
def bury (r : Registry) (o : ObjectId) : Registry where
  names := r.names.erase o
  owners := r.owners.filter fun _ owner => owner.object != o

/-- Takes the name of an object back, and the entry under this name if the object owns it. -/
def release (r : Registry) (o : ObjectId) : Registry where
  names := r.names.erase o
  owners := r.owners.filter fun name owner =>
    !(owner.object == o && r.names[o]? == some name)

/-- Enters a name for an object, and the object under the name unless there is another. -/
def enter (r : Registry) (name : Text) (o : ObjectId) (typeName : Text) : Registry where
  names := r.names.insert o name
  owners := r.owners.insertIfNew name ⟨o, typeName⟩

end Registry

/-- Objects and a table of what is registered about them, from which the dead are deleted. -/
structure EagerRoster where
  objects : Objects
  table : Registry

namespace EagerRoster

/-- No objects and no registrations. -/
def empty : EagerRoster := ⟨.empty, .empty⟩

/-- The number of objects that have a name. -/
def size (r : EagerRoster) : Nat := r.table.names.size

/-- Carries an operation out. -/
def step (r : EagerRoster) : Roster.Operation → EagerRoster × Roster.Reply
  | .create typeName =>
    let (objects, o) := r.objects.create typeName
    ({ r with objects }, .created o)
  | .setType o typeName => ({ r with objects := r.objects.setType o typeName }, .done)
  | .drop o => (⟨r.objects.drop o, r.table.bury o⟩, .done)
  | .register name o =>
    match r.objects.typeOf? o with
    | none => (r, .done)
    | some typeName =>
      if isValidPath name then ({ r with table := r.table.enter name o typeName }, .done)
      else (r, .failed (.invalidName name))
  | .registerChild name o parent =>
    match r.objects.typeOf? o, r.objects.typeOf? parent with
    | some typeName, some _ =>
      if isValidName name then
        match r.table.names[parent]? with
        | some parentName =>
          ({ r with table := r.table.enter (parentName ++ '.' :: name) o typeName }, .done)
        | none => (r, .failed (.unregisteredParent name))
      else (r, .failed (.invalidName name))
    | _, _ => (r, .done)
  | .unregister o =>
    if r.objects.isAlive o then ({ r with table := r.table.release o }, .done)
    else (r, .done)
  | .clear => ({ r with table := .empty }, .done)
  | .prune => (r, .done)
  | .nameOf o => (r, .text r.table.names[o]?)
  | .objectAt name => (r, .object (r.table.owners[name]?.map (·.object)))
  | .typeAt name => (r, .text (r.table.owners[name]?.map (·.typeName)))

/-- The answers to operations carried out in order, each with the size of the roster after it. -/
def replies (r : EagerRoster) : List Roster.Operation → List (Roster.Reply × Nat)
  | [] => []
  | op :: rest =>
    let (next, reply) := r.step op
    (reply, next.size) :: next.replies rest

end EagerRoster

namespace Roster

open Registry

/-- The eager roster with the same objects and the entries of the living ones. -/
def eager (r : Roster) : EagerRoster := ⟨r.objects, r.registry.prune r.objects.isAlive⟩

/-- The registry of a roster speaks of objects that have come into being. -/
def Sound (r : Roster) : Prop := r.registry.Precedes r.objects.next

variable {r : Roster}

theorem sound_empty : empty.Sound := precedes_empty _

/-- Nothing happens, or a name is recorded for a living object. -/
def Records (r next : Roster) : Prop :=
  next = r ∨ ∃ o name typeName, r.objects.isAlive o = true ∧
    next = { r with registry := r.registry.record r.objects.isAlive name o typeName }

theorem records_attempt {outcome : Except Error Registry} {o : ObjectId} {typeName : Text}
    (living : r.objects.isAlive o = true)
    (changed : ∀ registry, outcome = .ok registry →
      ∃ name, registry = r.registry.record r.objects.isAlive name o typeName) :
    Records r (r.attempt outcome).1 := by
  cases outcome with
  | error e => exact .inl rfl
  | ok registry =>
    obtain ⟨name, rfl⟩ := changed registry rfl
    exact .inr ⟨o, name, typeName, living, rfl⟩

theorem records_register (r : Roster) (name : Text) (o : ObjectId) :
    Records r (r.step (.register name o)).1 := by
  rw [step]
  split
  · exact .inl rfl
  · rename_i living
    apply records_attempt (Objects.isAlive_of_typeOf? living)
    exact fun _ outcome => ⟨name, record_of_register outcome⟩

theorem records_registerChild (r : Roster) (name : Text) (o parent : ObjectId) :
    Records r (r.step (.registerChild name o parent)).1 := by
  rw [step]
  split
  · rename_i living _
    apply records_attempt (Objects.isAlive_of_typeOf? living)
    intro _ outcome
    obtain ⟨parentName, -, recorded⟩ := record_of_registerChild outcome
    exact ⟨_, recorded⟩
  · exact .inl rfl

theorem sound_of_records {next : Roster} (h : r.Sound) (records : Records r next) :
    next.Sound := by
  obtain rfl | ⟨o, name, typeName, living, rfl⟩ := records
  · exact h
  · exact h.record (Objects.lt_next_of_isAlive living)

theorem sound_step (h : r.Sound) (op : Operation) : (r.step op).1.Sound := by
  cases op with
  | create typeName => exact h.mono (Nat.le_succ _)
  | setType o typeName =>
    show r.registry.Precedes (r.objects.setType o typeName).next
    rw [Objects.next_setType]
    exact h
  | register name o => exact sound_of_records h (records_register r name o)
  | registerChild name o parent => exact sound_of_records h (records_registerChild r name o parent)
  | unregister o =>
    rw [step]
    split
    · exact h.forget o
    · exact h
  | clear => exact precedes_empty _
  | prune => exact h.prune
  | _ => exact h

theorem sound_run (h : r.Sound) (operations : List Operation) : (r.run operations).Sound := by
  induction operations generalizing r with
  | nil => exact h
  | cons op rest ih => exact ih (sound_step h op)

/-- What the death of an object leaves to be pruned is what is deleted when it is buried. -/
theorem prune_drop (r : Registry) (objects : Objects) (o : ObjectId) :
    r.prune (objects.drop o).isAlive = (r.prune objects.isAlive).bury o := by
  apply ext_getElem?
  · intro p
    rw [getElem?_prune_names, bury, Std.ExtTreeMap.getElem?_erase, getElem?_prune_names, nameOf?,
      nameOf?, Objects.isAlive_drop]
    by_cases same : o = p
    · subst same
      simp
    · have other : (p != o) = true := by simpa using Ne.symm same
      simp [other, same]
  · intro name
    rw [getElem?_prune_owners, bury, Std.ExtTreeMap.getElem?_filter', getElem?_prune_owners,
      ownerOf?, ownerOf?, Option.filter_filter]
    apply optionFilter_congr
    intro owner _
    rw [Objects.isAlive_drop, Bool.and_comm]

/-- Recording prunes and enters. -/
theorem prune_record_eq_enter {alive : ObjectId → Bool} {o : ObjectId} (living : alive o = true)
    (r : Registry) (name typeName : Text) :
    (r.record alive name o typeName).prune alive = (r.prune alive).enter name o typeName :=
  prune_record living r name typeName

/-- Pruning after a living object is forgotten leaves what stays when it is released. -/
theorem prune_forget_eq_release {alive : ObjectId → Bool} {o : ObjectId} (living : alive o = true)
    (r : Registry) : (r.forget o).prune alive = (r.prune alive).release o := by
  rw [prune_forget living]
  apply ext_getElem?
  · intro p
    rw [getElem?_forget_names, release, Std.ExtTreeMap.getElem?_erase]
    simp
  · intro name
    rw [getElem?_forget_owners, release, Std.ExtTreeMap.getElem?_filter']

theorem size_eager (r : Roster) : r.eager.size = r.size := rfl

/-- An eager roster keeps up with one operation. -/
theorem step_eager (h : r.Sound) (op : Operation) :
    r.eager.step op = ((r.step op).1.eager, (r.step op).2) := by
  cases op with
  | create typeName =>
    simp only [EagerRoster.step, step, eager, Objects.create]
    rw [← h.prune_create typeName]
    rfl
  | setType o typeName => simp only [EagerRoster.step, step, eager, Objects.isAlive_setType]
  | drop o => simp only [EagerRoster.step, step, eager, prune_drop]
  | register name o =>
    simp only [EagerRoster.step, step, eager]
    cases living : r.objects.typeOf? o with
    | none => rfl
    | some typeName =>
      have alive := Objects.isAlive_of_typeOf? living
      simp only [Registry.register]
      split
      · simp only [attempt, prune_record_eq_enter alive]
      · rfl
  | registerChild name o parent =>
    simp only [EagerRoster.step, step, eager]
    cases living : r.objects.typeOf? o with
    | none => rfl
    | some typeName =>
      have alive := Objects.isAlive_of_typeOf? living
      cases r.objects.typeOf? parent with
      | none => rfl
      | some parentType =>
        simp only [Registry.registerChild, getElem?_prune_names]
        split
        · cases r.registry.nameOf? r.objects.isAlive parent with
          | none => rfl
          | some parentName => simp only [attempt, prune_record_eq_enter alive]
        · rfl
  | unregister o =>
    simp only [EagerRoster.step, step, eager]
    by_cases living : r.objects.isAlive o = true
    · simp only [if_pos living, prune_forget_eq_release living]
      exact if_pos living
    · simp only [if_neg living]
      exact if_neg living
  | clear => simp only [EagerRoster.step, step, eager, prune_empty]
  | prune => simp only [EagerRoster.step, step, eager, prune_prune_self]
  | nameOf o => simp only [EagerRoster.step, step, eager, getElem?_prune_names]
  | objectAt name => simp only [EagerRoster.step, step, eager, getElem?_prune_owners, objectAt?]
  | typeAt name => simp only [EagerRoster.step, step, eager, getElem?_prune_owners, typeAt?]

/-- An eager roster keeps up with any operations. -/
theorem replies_eager (h : r.Sound) (operations : List Operation) :
    r.eager.replies operations = r.replies operations := by
  induction operations generalizing r with
  | nil => rfl
  | cons op rest ih =>
    rw [EagerRoster.replies, replies, step_eager h op]
    simp only [ih (sound_step h op), size_eager]

/-- Rosters with the same objects and the same living entries cannot be told apart. -/
theorem replies_eq_of_eager_eq {s : Roster} (hr : r.Sound) (hs : s.Sound)
    (same : r.eager = s.eager) (operations : List Operation) :
    r.replies operations = s.replies operations := by
  rw [← replies_eager hr, ← replies_eager hs, same]

theorem eager_empty : empty.eager = EagerRoster.empty := by
  rw [eager, EagerRoster.empty]
  exact congrArg _ (prune_empty _)

theorem eager_prune (r : Roster) : (r.step .prune).1.eager = r.eager := by
  rw [step, eager, eager, prune_prune_self]

/-- A name that leads to no living object is there for the next one, with its type. -/
theorem ownerOf?_register {name : Text} (path : isValidPath name = true) {o : ObjectId}
    {typeName : Text} (living : r.objects.typeOf? o = some typeName)
    (dead : ∀ owner, r.registry.owners[name]? = some owner →
      r.objects.isAlive owner.object = false) :
    let next := (r.step (.register name o)).1
    next.registry.ownerOf? next.objects.isAlive name = some ⟨o, typeName⟩ := by
  have alive := Objects.isAlive_of_typeOf? living
  have free : r.registry.ownerOf? r.objects.isAlive name = none := by
    rw [ownerOf?, Option.filter_eq_none_iff]
    intro owner owned
    simp [dead owner owned]
  have recorded : (r.step (.register name o)).1 =
      { r with registry := r.registry.record r.objects.isAlive name o typeName } := by
    simp only [step, living, Registry.register, path, ↓reduceIte, attempt]
  intro next
  rw [show next = _ from recorded, ownerOf?_record alive, if_pos rfl, free]
  rfl

/-- Every history of a roster is answered as if the dead were deleted at once. Pruning at any point
changes no later answer. An answer never tells of a dead object, and a name that led to one is there
for the next object, with its type. -/
theorem replies_eq_eager_replies :
    (∀ operations, empty.replies operations = EagerRoster.empty.replies operations) ∧
    (∀ before after, ((empty.run before).step .prune).1.replies after =
      (empty.run before).replies after) ∧
    ∀ operations,
      let r := empty.run operations
      (∀ o name, r.registry.nameOf? r.objects.isAlive o = some name →
        r.objects.isAlive o = true) ∧
      (∀ name o, r.registry.objectAt? r.objects.isAlive name = some o →
        r.objects.isAlive o = true) ∧
      ∀ name, isValidPath name = true → ∀ o typeName, r.objects.typeOf? o = some typeName →
        (∀ owner, r.registry.owners[name]? = some owner →
          r.objects.isAlive owner.object = false) →
        let next := (r.step (.register name o)).1
        next.registry.ownerOf? next.objects.isAlive name = some ⟨o, typeName⟩ := by
  refine ⟨?_, ?_, ?_⟩
  · intro operations
    rw [← eager_empty, replies_eager sound_empty]
  · intro before after
    have sound := sound_run sound_empty before
    exact replies_eq_of_eager_eq (sound_step sound .prune) sound (eager_prune _) after
  · intro operations r
    refine ⟨?_, ?_, ?_⟩
    · intro o name named
      rw [nameOf?] at named
      split at named
      · assumption
      · cases named
    · intro name o found
      obtain ⟨owner, owned, rfl⟩ := Option.map_eq_some_iff.1 found
      exact (Option.filter_eq_some_iff.1 owned).2
    · intro name path o typeName living dead
      exact ownerOf?_register path living dead

/-- The name of a dead object, never pruned, for an object of another type. -/
theorem replies_eq_eager_replies_after_death :
    let before : List Operation := [.create "Frame".toList, .register "app.view".toList 0,
      .register "app.main".toList 0, .drop 0, .create "Panel".toList]
    let after : List Operation := [.register "app.view".toList 1, .typeAt "app.view".toList]
    let r := empty.run before
    let next := (r.step (.register "app.view".toList 1)).1
    empty.replies (before ++ after) = EagerRoster.empty.replies (before ++ after) ∧
      (r.step .prune).1.replies after = r.replies after ∧
      r.registry.owners["app.view".toList]? = some ⟨0, "Frame".toList⟩ ∧
      next.registry.ownerOf? next.objects.isAlive "app.view".toList =
        some ⟨1, "Panel".toList⟩ := by
  intro before after r next
  obtain ⟨same, pruned, dead⟩ := replies_eq_eager_replies
  have stale : r.registry.owners["app.view".toList]? = some ⟨0, "Frame".toList⟩ := by
    decide +kernel
  refine ⟨same _, pruned before after, stale, ?_⟩
  refine (dead before).2.2 _ (by decide +kernel) 1 _ (by decide +kernel) ?_
  intro owner owned
  obtain rfl : ⟨0, "Frame".toList⟩ = owner := Option.some.inj (stale.symm.trans owned)
  decide +kernel

end Roster

end ResourceLookup
