import ResourceLookup.Proofs.Registry.Eager
import ResourceLookup.Proofs.Registry.Names
import ResourceLookup.Store.Basic

/-!
# Deserted names

Several objects can have one name, but the name leads to the first of them alone. When that one
goes, the name leads to nobody until something is registered under it again, and the others keep it
all the same: they are deserted. `Roster.Deserts` says when an operation leaves an object so, and
`Roster.unowned_iff_deserted` that the name of an object leads to nobody in no other way.

The type of the object that a name leads to is what a search has to go by where it finds no child of
that name. So a lookup relative to a deserted object has no type for the last segment of its name.
-/

namespace ResourceLookup

namespace Roster

open Registry

variable {r next : Roster} {o p : ObjectId} {name typeName : Text} {op : Operation}

/-- The name under which an operation registers an object, if it registers one. -/
def registers? (r : Roster) : Operation → Option Text
  | .register name o => if r.objects.isAlive o && isValidPath name then some name else none
  | .registerChild name o parent =>
    if r.objects.isAlive o && isValidName name then
      (r.registry.nameOf? r.objects.isAlive parent).map (· ++ '.' :: name)
    else none
  | _ => none

/-- The names under which operations register objects, in order. -/
def registrations (r : Roster) : List Operation → List Text
  | [] => []
  | op :: rest => (r.registers? op).toList ++ (r.step op).1.registrations rest

theorem registrations_append (r : Roster) (before after : List Operation) :
    r.registrations (before ++ after) =
      r.registrations before ++ (r.run before).registrations after := by
  induction before generalizing r with
  | nil => rfl
  | cons op rest ih => simp only [List.cons_append, registrations, ih, run_cons, List.append_assoc]

theorem registrations_singleton (r : Roster) (op : Operation) :
    r.registrations [op] = (r.registers? op).toList :=
  List.append_nil _

/-- What an operation does to the living and their registrations. -/
inductive Effect (r : Roster) : Operation → Roster → Prop where
  | keep {op : Operation} {next : Roster} (quiet : r.registers? op = none)
      (same : next.registry.prune next.objects.isAlive = r.registry.prune r.objects.isAlive) :
      Effect r op next
  | register {op : Operation} {p : ObjectId} {name : Text}
      (registered : r.registers? op = some name) (living : r.objects.isAlive p = true)
      (typeName : Text) :
      Effect r op { r with registry := r.registry.record r.objects.isAlive name p typeName }
  | drop (p : ObjectId) : Effect r (.drop p) { r with objects := r.objects.drop p }
  | unregister {p : ObjectId} (living : r.objects.isAlive p = true) :
      Effect r (.unregister p) { r with registry := r.registry.forget p }
  | clear : Effect r .clear { r with registry := .empty }

theorem Effect.unchanged (quiet : r.registers? op = none) : Effect r op r := .keep quiet rfl

theorem effect_register (r : Roster) (name : Text) (o : ObjectId) :
    Effect r (.register name o) (r.step (.register name o)).1 := by
  rw [step]
  split
  · rename_i dead
    exact .unchanged (by simp [registers?, Objects.isAlive, dead])
  · rename_i typeName found
    have living := Objects.isAlive_of_typeOf? found
    rw [Registry.register]
    split
    · rename_i path
      exact .register (by simp [registers?, living, path]) living typeName
    · rename_i path
      exact .unchanged (by simp [registers?, path])

theorem effect_registerChild (r : Roster) (name : Text) (o parent : ObjectId) :
    Effect r (.registerChild name o parent) (r.step (.registerChild name o parent)).1 := by
  rw [step]
  split
  · rename_i typeName parentType found _
    have living := Objects.isAlive_of_typeOf? found
    rw [Registry.registerChild]
    split
    · rename_i valid
      split
      · rename_i parentName named
        exact .register (by simp [registers?, living, valid, named]) living typeName
      · rename_i nameless
        exact .unchanged (by simp [registers?, nameless])
    · rename_i invalid
      exact .unchanged (by simp [registers?, invalid])
  · rename_i dead
    refine .unchanged ?_
    rw [registers?]
    split
    · rename_i able
      -- The object lives, so that it is the parent who does not, and the dead have no names.
      rw [Bool.and_eq_true, Objects.isAlive, Option.isSome_iff_exists] at able
      obtain ⟨⟨typeName, found⟩, -⟩ := able
      have gone : r.objects.isAlive parent = false := by
        rw [Objects.isAlive, Option.isSome_eq_false_iff, Option.isNone_iff_eq_none,
          Option.eq_none_iff_forall_ne_some]
        exact fun parentType foundParent => dead typeName parentType found foundParent
      simp [nameOf?, gone]
    · rfl

theorem effect_step (sound : r.Sound) (op : Operation) : Effect r op (r.step op).1 := by
  cases op with
  | create typeName => exact .keep rfl (sound.prune_create typeName)
  | setType o typeName =>
    refine .keep rfl ?_
    show r.registry.prune (r.objects.setType o typeName).isAlive = _
    rw [Objects.isAlive_setType]
  | drop o => exact .drop o
  | register name o => exact effect_register r name o
  | registerChild name o parent => exact effect_registerChild r name o parent
  | unregister o =>
    rw [step]
    split
    · rename_i living
      exact .unregister living
    · exact .unchanged rfl
  | clear => exact .clear
  | prune => exact .keep rfl (r.registry.prune_prune_self _)
  | _ => exact .unchanged rfl

/-- The names of the living are paths of valid names. -/
def HasValidNames (r : Roster) : Prop := (r.registry.prune r.objects.isAlive).HasValidNames

theorem HasValidNames.of_nameOf? (valid : r.HasValidNames)
    (named : r.registry.nameOf? r.objects.isAlive o = some name) : isValidPath name = true := by
  rw [← getElem?_prune_names] at named
  exact valid o name named

theorem HasValidNames.of_registers? (valid : r.HasValidNames)
    (registered : r.registers? op = some name) : isValidPath name = true := by
  cases op with
  | register name' o =>
    rw [registers?, Option.ite_none_right_eq_some, Bool.and_eq_true] at registered
    obtain ⟨⟨-, path⟩, same⟩ := registered
    exact Option.some.inj same ▸ path
  | registerChild name' o parent =>
    rw [registers?, Option.ite_none_right_eq_some, Bool.and_eq_true] at registered
    obtain ⟨⟨-, single⟩, same⟩ := registered
    obtain ⟨parentName, named, rfl⟩ := Option.map_eq_some_iff.1 same
    exact isValidPath_below (valid.of_nameOf? named) single
  | _ => cases registered

theorem HasValidNames.of_effect (valid : r.HasValidNames) (effect : Effect r op next) :
    next.HasValidNames := by
  cases effect with
  | keep _ same =>
    rw [HasValidNames, same]
    exact valid
  | register registered living typeName =>
    rw [HasValidNames, prune_record living, ← record_prune]
    exact valid.record (valid.of_registers? registered)
  | drop p =>
    have fewer (o : ObjectId) (living : (r.objects.drop p).isAlive o = true) :
        r.objects.isAlive o = true := by
      rw [Objects.isAlive_drop, Bool.and_eq_true] at living
      exact living.2
    rw [HasValidNames, ← prune_prune fewer]
    exact valid.prune
  | unregister living =>
    rw [HasValidNames, prune_forget living]
    exact valid.forget
  | clear =>
    rw [HasValidNames, prune_empty]
    exact hasValidNames_empty

theorem hasValidNames_run (sound : r.Sound) (valid : r.HasValidNames)
    (operations : List Operation) : (r.run operations).HasValidNames := by
  induction operations generalizing r with
  | nil => exact valid
  | cons op rest ih => exact ih (sound_step sound op) (valid.of_effect (effect_step sound op))

/-- An operation takes away the object that the name of another one leads to. -/
structure Deserts (r : Roster) (o : ObjectId) (name : Text) (p : ObjectId) (op : Operation) :
    Prop where
  named : r.registry.nameOf? r.objects.isAlive o = some name
  other : p ≠ o
  found : r.registry.objectAt? r.objects.isAlive name = some p
  leaves : op = .drop p ∨
    op = .unregister p ∧ r.registry.nameOf? r.objects.isAlive p = some name

section Step

/-- An object that has a name which nothing was registered under had it before. -/
theorem Effect.nameOf?_of_quiet (effect : Effect r op next) (quiet : r.registers? op ≠ some name)
    (named : next.registry.nameOf? next.objects.isAlive o = some name) :
    r.registry.nameOf? r.objects.isAlive o = some name := by
  cases effect with
  | keep _ same => exact ((prune_eq_iff.1 same).1 o).symm.trans named
  | @register _ p given registered living typeName =>
    rw [nameOf?_record living] at named
    split at named
    · exact absurd (registered.trans named) quiet
    · exact named
  | drop p =>
    rw [nameOf?_drop] at named
    split at named
    · cases named
    · exact named
  | unregister living =>
    rw [nameOf?_forget] at named
    split at named
    · cases named
    · exact named
  | clear => simp [nameOf?, Registry.empty] at named

/-- A name goes on leading to nobody while nothing is registered under it. -/
theorem Effect.unowned_of_quiet (effect : Effect r op next) (quiet : r.registers? op ≠ some name)
    (unowned : r.registry.ownerOf? r.objects.isAlive name = none) :
    next.registry.ownerOf? next.objects.isAlive name = none := by
  cases effect with
  | keep _ same => exact ((prune_eq_iff.1 same).2 name).trans unowned
  | @register _ p given registered living typeName =>
    have other : given ≠ name := by
      rintro rfl
      exact quiet registered
    rw [ownerOf?_record living, if_neg other]
    exact unowned
  | drop p =>
    rw [ownerOf?_drop, unowned]
    rfl
  | unregister living =>
    rw [ownerOf?_forget, unowned]
    rfl
  | clear => simp [ownerOf?, Registry.empty]

/-- The name of an object does not come to lead to nobody unless the object is deserted. -/
theorem Effect.deserts (effect : Effect r op next)
    (named : next.registry.nameOf? next.objects.isAlive o = some name)
    (unowned : next.registry.ownerOf? next.objects.isAlive name = none) :
    r.registers? op ≠ some name ∧
      (r.registry.ownerOf? r.objects.isAlive name = none ∨ ∃ p, r.Deserts o name p op) := by
  cases effect with
  | keep quiet same =>
    refine ⟨by simp [quiet], .inl ?_⟩
    exact ((prune_eq_iff.1 same).2 name).symm.trans unowned
  | @register _ p given registered living typeName =>
    rw [ownerOf?_record living] at unowned
    split at unowned
    · cases unowned
    · rename_i other
      exact ⟨fun again => other (Option.some.inj (registered.symm.trans again)), .inl unowned⟩
  | drop p =>
    rw [nameOf?_drop, Option.ite_none_left_eq_some] at named
    refine ⟨(Option.some_ne_none name).symm, ?_⟩
    cases found : r.registry.ownerOf? r.objects.isAlive name with
    | none => exact .inl rfl
    | some owner =>
      rw [ownerOf?_drop, found, Option.filter_eq_none_iff] at unowned
      have gone : owner.object = p := by simpa using unowned owner rfl
      exact .inr ⟨p, named.2, Ne.symm named.1, by simp [objectAt?, found, gone], .inl rfl⟩
  | @unregister p living =>
    rw [nameOf?_forget, Option.ite_none_left_eq_some] at named
    refine ⟨(Option.some_ne_none name).symm, ?_⟩
    cases found : r.registry.ownerOf? r.objects.isAlive name with
    | none => exact .inl rfl
    | some owner =>
      rw [ownerOf?_forget, found, Option.filter_eq_none_iff] at unowned
      obtain ⟨gone, last⟩ : owner.object = p ∧ r.registry.names[p]? = some name := by
        simpa using unowned owner rfl
      have present : r.registry.nameOf? r.objects.isAlive p = some name := by
        rw [nameOf?, if_pos living, last]
      exact .inr ⟨p, named.2, named.1, by simp [objectAt?, found, gone], .inr ⟨rfl, present⟩⟩
  | clear => simp [nameOf?, Registry.empty] at named

/-- The name of an object that is deserted leads to nobody. -/
theorem Deserts.unowned (deserts : r.Deserts o name p op) :
    (r.step op).1.registry.ownerOf? (r.step op).1.objects.isAlive name = none := by
  obtain ⟨owner, found, rfl⟩ := Option.map_eq_some_iff.1 deserts.found
  obtain rfl | ⟨rfl, present⟩ := deserts.leaves
  · rw [step, ownerOf?_drop, found]
    exact Option.filter_some_neg (by simp)
  · have living : r.objects.isAlive owner.object = true := (Option.filter_eq_some_iff.1 found).2
    rw [step, if_pos living, ownerOf?_forget, found, getElem?_names_of_nameOf? present]
    exact Option.filter_some_neg (by simp)

end Step

section Run

theorem unowned_run (sound : r.Sound) {operations : List Operation}
    (quiet : name ∉ r.registrations operations)
    (unowned : r.registry.ownerOf? r.objects.isAlive name = none) :
    (r.run operations).registry.ownerOf? (r.run operations).objects.isAlive name = none := by
  induction operations generalizing r with
  | nil => exact unowned
  | cons op rest ih =>
    rw [registrations, List.mem_append, Option.mem_toList, not_or] at quiet
    exact ih (sound_step sound op) quiet.2 ((effect_step sound op).unowned_of_quiet quiet.1 unowned)

/-- In the course of a history an object was deserted under its name, and nothing was registered
under the name since. -/
def Deserted (operations : List Operation) (o : ObjectId) (name : Text) : Prop :=
  ∃ before op after p, operations = before ++ op :: after ∧
    (empty.run before).Deserts o name p op ∧
    name ∉ ((empty.run before).step op).1.registrations after

theorem Deserted.append_singleton {operations : List Operation}
    (deserted : Deserted operations o name)
    (quiet : (empty.run operations).registers? op ≠ some name) :
    Deserted (operations ++ [op]) o name := by
  obtain ⟨before, first, after, p, rfl, deserts, since⟩ := deserted
  refine ⟨before, first, after ++ [op], p, by simp, deserts, ?_⟩
  rw [run_append, run_cons] at quiet
  rw [registrations_append, registrations_singleton, List.mem_append, Option.mem_toList, not_or]
  exact ⟨since, quiet⟩

theorem Deserted.unowned {operations : List Operation} (deserted : Deserted operations o name) :
    (empty.run operations).registry.ownerOf? (empty.run operations).objects.isAlive name =
      none := by
  obtain ⟨before, op, after, p, rfl, deserts, since⟩ := deserted
  have sound : (empty.run before).Sound := sound_run sound_empty before
  rw [run_append, run_cons]
  exact unowned_run (sound_step sound op) since deserts.unowned

/-- An object whose name leads to nobody was deserted. -/
theorem deserted_of_unowned {operations : List Operation}
    (named : (empty.run operations).registry.nameOf? (empty.run operations).objects.isAlive o =
      some name)
    (unowned : (empty.run operations).registry.ownerOf? (empty.run operations).objects.isAlive
      name = none) :
    Deserted operations o name := by
  induction operations using List.reverseRecOn with
  | nil => simp [empty, nameOf?, Registry.empty] at named
  | append_singleton earlier last ih =>
    have sound : (empty.run earlier).Sound := sound_run sound_empty earlier
    have effect := effect_step sound last
    rw [run_append] at named unowned
    obtain ⟨quiet, already | ⟨p, deserts⟩⟩ := effect.deserts named unowned
    · exact (ih (effect.nameOf?_of_quiet quiet named) already).append_singleton quiet
    · exact ⟨earlier, last, [], p, rfl, deserts, List.not_mem_nil⟩

/-- The name of an object leads to nobody exactly if the object was deserted. -/
theorem unowned_iff_deserted {operations : List Operation}
    (named : (empty.run operations).registry.nameOf? (empty.run operations).objects.isAlive o =
      some name) :
    (empty.run operations).registry.ownerOf? (empty.run operations).objects.isAlive name = none ↔
      Deserted operations o name :=
  ⟨deserted_of_unowned named, Deserted.unowned⟩

end Run

/-- What a search has for the type of the last segment of a registered name is the type on record
under the name. -/
theorem typeOf?_of_isValidPath (l : Lookup) (path : isValidPath name = true) {consumed : List Text}
    {segment : Text} (split : consumed ++ [segment] = name.splitOn '.') :
    l.typeOf? (consumed ++ [segment]) segment = l.typeAt? name := by
  have single : isValidName segment = true := isValidPath_iff.1 path segment (by simp [← split])
  have whole : Lookup.path (consumed ++ [segment]) = name := by
    rw [split]
    exact List.intercalate_splitOn _
  simp only [Lookup.typeOf?, Category.ofSegment_of_isValidName single, whole]

/-- The name of a living object leads to a living object, and there is a type on record under it,
unless the object was deserted and nothing was registered under the name since. It is then that a
search which comes to the end of the name has no type to go by. -/
theorem name_leads_to_living_unless_deserted (operations : List Operation) (o : ObjectId)
    (name : Text)
    (named : (empty.run operations).registry.nameOf? (empty.run operations).objects.isAlive o =
      some name) :
    let r := empty.run operations
    ((∃ p, r.registry.objectAt? r.objects.isAlive name = some p ∧ r.objects.isAlive p = true) ↔
      ¬ Deserted operations o name) ∧
    ((r.registry.typeAt? r.objects.isAlive name).isSome ↔ ¬ Deserted operations o name) ∧
    ∀ (tree : Tree) (hierarchy : Hierarchy) (consumed : List Text) (segment : Text),
      consumed ++ [segment] = name.splitOn '.' →
        let store : Store := ⟨tree, r.registry, hierarchy⟩
        (((store.lookup r.objects).typeOf? (consumed ++ [segment]) segment).isSome ↔
          ¬ Deserted operations o name) := by
  intro r
  have path : isValidPath name = true := by
    have valid : r.HasValidNames := hasValidNames_run sound_empty hasValidNames_empty operations
    exact valid.of_nameOf? named
  have typed : (r.registry.typeAt? r.objects.isAlive name).isSome ↔
      ¬ Deserted operations o name := by
    rw [← unowned_iff_deserted named, typeAt?, Option.isSome_map, ← Option.ne_none_iff_isSome]
  refine ⟨?_, typed, ?_⟩
  · rw [← unowned_iff_deserted named, ← ne_eq, Option.ne_none_iff_exists']
    constructor
    · rintro ⟨p, found, -⟩
      obtain ⟨owner, owned, -⟩ := Option.map_eq_some_iff.1 found
      exact ⟨owner, owned⟩
    · rintro ⟨owner, owned⟩
      refine ⟨owner.object, by simp [objectAt?, r, owned], (Option.filter_eq_some_iff.1 owned).2⟩
  · intro tree hierarchy consumed segment split store
    rw [typeOf?_of_isValidPath _ path split]
    exact typed

/-- Two objects under one name, the first of which dies. -/
theorem deserted_by_first_of_two :
    let operations : List Operation := [.create "Frame".toList, .create "Panel".toList,
      .register "main.view".toList 0, .register "main.view".toList 1, .drop 0]
    let r := empty.run operations
    r.registry.nameOf? r.objects.isAlive 1 = some "main.view".toList ∧
      Deserted operations 1 "main.view".toList := by
  intro operations r
  have named : (empty.run operations).registry.nameOf? (empty.run operations).objects.isAlive 1 =
      some "main.view".toList := by
    decide +kernel
  obtain ⟨-, typed, -⟩ := name_leads_to_living_unless_deserted operations 1 "main.view".toList named
  refine ⟨named, not_not.1 fun kept => ?_⟩
  exact absurd (typed.2 kept) (by decide +kernel)

/-- The first object under a name is unregistered, and the second one has a name that leads to
nobody. -/
theorem second_keeps_name_that_leads_nowhere :
    ¬ ∀ (operations : List Operation) (o : ObjectId) (name : Text),
      let r := empty.run operations
      r.registry.nameOf? r.objects.isAlive o = some name →
        (∃ p, r.registry.objectAt? r.objects.isAlive name = some p ∧
          r.objects.isAlive p = true) ∧
        (r.registry.typeAt? r.objects.isAlive name).isSome := by
  intro complete
  have kept := complete
    [.create "Frame".toList, .create "Panel".toList, .register "shared".toList 0,
      .register "shared".toList 1, .unregister 0] 1 "shared".toList (by decide +kernel)
  exact absurd kept.2 (by decide +kernel)

end Roster

end ResourceLookup
