import ResourceLookup.Proofs.Registry.Eager
import ResourceLookup.Proofs.Registry.Names

/-!
# What unregistering leaves behind

An object that is registered again gets another name, but the old name goes on leading to it.
Unregistering takes the present name back and leaves the replaced ones. The names that an object was
given in place of which others came are told from a history, and `owner_cases_step` says what one
operation does to the owners of names.
-/

namespace ResourceLookup

namespace Roster

open Registry

/-- The name that an operation replaces by another one, for an object. -/
def replacedBy (r : Roster) (o : ObjectId) (op : Operation) : List Text :=
  let next := (r.step op).1
  match r.registry.nameOf? r.objects.isAlive o, next.registry.nameOf? next.objects.isAlive o with
  | some old, some new => if old = new then [] else [old]
  | _, _ => []

/-- The replaced names of an object after an operation. -/
def recordReplaced (r : Roster) (o : ObjectId) (replaced : List Text) : Operation → List Text
  | .clear => []
  | op => replaced ++ r.replacedBy o op

/-- The replaced names of an object after operations in order. -/
def recordAllReplaced (r : Roster) (o : ObjectId) (replaced : List Text) :
    List Operation → List Text
  | [] => replaced
  | op :: rest => (r.step op).1.recordAllReplaced o (r.recordReplaced o replaced op) rest

/-- The names of an object that operations replaced since the last time that every registration
was taken back. -/
def replacedNames (r : Roster) (o : ObjectId) (operations : List Operation) : List Text :=
  r.recordAllReplaced o [] operations

variable {r : Roster} {o : ObjectId} {name : Text} {owner : Owner} {replaced : List Text}

/-- An object that owns a name after an operation has it as its name, or else it owned the name
before and the operation gave it another. -/
def Kept (r next : Roster) : Prop :=
  ∀ (name : Text) (owner : Owner),
    next.registry.ownerOf? next.objects.isAlive name = some owner →
      next.registry.nameOf? next.objects.isAlive owner.object = some name ∨
        r.registry.ownerOf? r.objects.isAlive name = some owner ∧
          (r.registry.nameOf? r.objects.isAlive owner.object = some name →
            ∃ new, new ≠ name ∧
              next.registry.nameOf? next.objects.isAlive owner.object = some new)

theorem kept_of_prune_eq {next : Roster}
    (same : next.registry.prune next.objects.isAlive = r.registry.prune r.objects.isAlive) :
    Kept r next := by
  obtain ⟨names, owners⟩ := prune_eq_iff.1 same
  intro name owner owned
  rw [owners] at owned
  rw [names]
  by_cases named : r.registry.nameOf? r.objects.isAlive owner.object = some name
  · exact .inl named
  · exact .inr ⟨owned, fun h => absurd h named⟩

theorem kept_self (r : Roster) : Kept r r := kept_of_prune_eq rfl

theorem kept_record (living : r.objects.isAlive o = true) (name typeName : Text) :
    Kept r { r with registry := r.registry.record r.objects.isAlive name o typeName } := by
  intro other owner owned
  simp only at owned ⊢
  rw [ownerOf?_record living] at owned
  rw [nameOf?_record living]
  by_cases own : o = owner.object
  · rw [if_pos own]
    by_cases same : name = other
    · exact .inl (congrArg some same)
    · rw [if_neg same] at owned
      exact .inr ⟨owned, fun _ => ⟨name, same, rfl⟩⟩
  · rw [if_neg own]
    have before : r.registry.ownerOf? r.objects.isAlive other = some owner := by
      split at owned
      · rename_i same
        subst same
        cases found : r.registry.ownerOf? r.objects.isAlive name with
        | none =>
          rw [found] at owned
          cases owned
          exact absurd rfl own
        | some first =>
          rw [found] at owned
          exact owned
      · exact owned
    by_cases named : r.registry.nameOf? r.objects.isAlive owner.object = some other
    · exact .inl named
    · exact .inr ⟨before, fun h => absurd h named⟩

theorem kept_of_records {next : Roster} (records : Records r next) : Kept r next := by
  obtain rfl | ⟨o, name, typeName, living, rfl⟩ := records
  · exact kept_self next
  · exact kept_record living name typeName

/-- The owners that die are none any more, and all others stay as they were. -/
theorem kept_drop (r : Roster) (o : ObjectId) : Kept r { r with objects := r.objects.drop o } := by
  intro name owner owned
  obtain ⟨found, living⟩ := Option.filter_eq_some_iff.1 owned
  rw [Objects.isAlive_drop, Bool.and_eq_true] at living
  have before : r.registry.ownerOf? r.objects.isAlive name = some owner :=
    Option.filter_eq_some_iff.2 ⟨found, living.2⟩
  have names : r.registry.nameOf? (r.objects.drop o).isAlive owner.object =
      r.registry.nameOf? r.objects.isAlive owner.object := by
    rw [nameOf?, nameOf?, Objects.isAlive_drop, living.1, Bool.true_and]
  simp only [names]
  by_cases named : r.registry.nameOf? r.objects.isAlive owner.object = some name
  · exact .inl named
  · exact .inr ⟨before, fun h => absurd h named⟩

/-- The object that is unregistered is not the owner of its name any more. -/
theorem kept_forget (r : Roster) (o : ObjectId) :
    Kept r { r with registry := r.registry.forget o } := by
  intro name owner owned
  simp only [ownerOf?_forget, Option.filter_eq_some_iff] at owned
  obtain ⟨before, kept⟩ := owned
  simp only [nameOf?_forget]
  by_cases named : r.registry.nameOf? r.objects.isAlive owner.object = some name
  · refine .inl ?_
    have other : o ≠ owner.object := by
      rintro rfl
      simp [getElem?_names_of_nameOf? named] at kept
    rw [if_neg other]
    exact named
  · exact .inr ⟨before, fun h => absurd h named⟩

/-- What one operation does to the owners of names. -/
theorem kept_step (sound : r.Sound) (op : Operation) : Kept r (r.step op).1 := by
  cases op with
  | create typeName => exact kept_of_prune_eq (sound.prune_create typeName)
  | setType o typeName =>
    apply kept_of_prune_eq
    show r.registry.prune (r.objects.setType o typeName).isAlive = _
    rw [Objects.isAlive_setType]
  | drop o => exact kept_drop r o
  | register name o => exact kept_of_records (records_register r name o)
  | registerChild name o parent => exact kept_of_records (records_registerChild r name o parent)
  | unregister o =>
    rw [step]
    split
    · exact kept_forget r o
    · exact kept_self r
  | clear =>
    intro name owner owned
    simp [step, ownerOf?, Registry.empty] at owned
  | prune => exact kept_of_prune_eq (r.registry.prune_prune_self _)
  | _ => exact kept_self r

/-- Every name that leads to an object is its name, or was replaced. -/
def Traced (r : Roster) (o : ObjectId) (replaced : List Text) : Prop :=
  ∀ (name : Text) (typeName : Text),
    r.registry.ownerOf? r.objects.isAlive name = some ⟨o, typeName⟩ →
      r.registry.nameOf? r.objects.isAlive o = some name ∨ name ∈ replaced

theorem traced_empty (o : ObjectId) : empty.Traced o [] := by
  intro name typeName owned
  simp [empty, ownerOf?, Registry.empty] at owned

theorem mem_replacedBy {op : Operation} {new : Text}
    (before : r.registry.nameOf? r.objects.isAlive o = some name)
    (after : (r.step op).1.registry.nameOf? (r.step op).1.objects.isAlive o = some new)
    (other : new ≠ name) : name ∈ r.replacedBy o op := by
  simp [replacedBy, before, after, Ne.symm other]

theorem traced_step (sound : r.Sound) (traced : r.Traced o replaced) (op : Operation) :
    (r.step op).1.Traced o (r.recordReplaced o replaced op) := by
  intro name typeName owned
  by_cases clear : op = .clear
  · subst clear
    simp [step, ownerOf?, Registry.empty] at owned
  · have recorded : r.recordReplaced o replaced op = replaced ++ r.replacedBy o op := by
      cases op with
      | clear => exact absurd rfl clear
      | _ => rfl
    rw [recorded, List.mem_append]
    obtain named | ⟨before, renamed⟩ := kept_step sound op name _ owned
    · exact .inl named
    · obtain named | mem := traced name typeName before
      · obtain ⟨new, other, after⟩ := renamed named
        exact .inr (.inr (mem_replacedBy named after other))
      · exact .inr (.inl mem)

theorem traced_run (sound : r.Sound) (traced : r.Traced o replaced) (operations : List Operation) :
    (r.run operations).Traced o (r.recordAllReplaced o replaced operations) := by
  induction operations generalizing r replaced with
  | nil => exact traced
  | cons op rest ih => exact ih (sound_step sound op) (traced_step sound traced op)

theorem objectAt?_eq_some_iff {registry : Registry} {alive : ObjectId → Bool} :
    registry.objectAt? alive name = some o ↔
      ∃ typeName, registry.ownerOf? alive name = some ⟨o, typeName⟩ := by
  rw [objectAt?, Option.map_eq_some_iff]
  constructor
  · rintro ⟨⟨_, typeName⟩, owned, rfl⟩
    exact ⟨typeName, owned⟩
  · rintro ⟨typeName, owned⟩
    exact ⟨_, owned, rfl⟩

theorem nameOf?_unregister (r : Roster) (o : ObjectId) :
    (r.step (.unregister o)).1.registry.nameOf? (r.step (.unregister o)).1.objects.isAlive o =
      none := by
  rw [step]
  split
  · rw [nameOf?_forget, if_pos rfl]
  · rename_i dead
    exact if_neg dead

/-- Unregistering takes away the present name alone. -/
theorem ownerOf?_unregister (r : Roster) (o : ObjectId) (name typeName : Text) :
    (r.step (.unregister o)).1.registry.ownerOf? (r.step (.unregister o)).1.objects.isAlive name =
        some ⟨o, typeName⟩ ↔
      r.registry.ownerOf? r.objects.isAlive name = some ⟨o, typeName⟩ ∧
        r.registry.nameOf? r.objects.isAlive o ≠ some name := by
  rw [step]
  split
  · rename_i living
    rw [ownerOf?_forget, Option.filter_eq_some_iff, nameOf?, if_pos living]
    simp
  · rename_i dead
    constructor
    · intro owned
      exact absurd (Option.filter_eq_some_iff.1 owned).2 dead
    · exact And.left

/-- After an object was unregistered it has no name. The names that still lead to it are those that
led to it before, the present one excepted, and each of them was replaced by another name when the
object was registered again. -/
theorem unregistered_unless_replaced (operations : List Operation) (o : ObjectId) :
    let r := empty.run operations
    let next := (r.step (.unregister o)).1
    next.registry.nameOf? next.objects.isAlive o = none ∧
    ∀ name,
      (next.registry.objectAt? next.objects.isAlive name = some o ↔
        r.registry.objectAt? r.objects.isAlive name = some o ∧
          r.registry.nameOf? r.objects.isAlive o ≠ some name ∧
          name ∈ empty.replacedNames o operations) ∧
      ∀ typeName,
        (next.registry.ownerOf? next.objects.isAlive name = some ⟨o, typeName⟩ ↔
          r.registry.ownerOf? r.objects.isAlive name = some ⟨o, typeName⟩ ∧
            r.registry.nameOf? r.objects.isAlive o ≠ some name ∧
            name ∈ empty.replacedNames o operations) := by
  intro r next
  have traced : r.Traced o (empty.replacedNames o operations) :=
    traced_run sound_empty (traced_empty o) operations
  have owners (name typeName : Text) :
      next.registry.ownerOf? next.objects.isAlive name = some ⟨o, typeName⟩ ↔
        r.registry.ownerOf? r.objects.isAlive name = some ⟨o, typeName⟩ ∧
          r.registry.nameOf? r.objects.isAlive o ≠ some name ∧
          name ∈ empty.replacedNames o operations := by
    rw [ownerOf?_unregister]
    constructor
    · rintro ⟨owned, other⟩
      exact ⟨owned, other, (traced name typeName owned).resolve_left other⟩
    · rintro ⟨owned, other, -⟩
      exact ⟨owned, other⟩
  refine ⟨nameOf?_unregister r o, fun name => ⟨?_, owners name⟩⟩
  rw [objectAt?_eq_some_iff, objectAt?_eq_some_iff]
  constructor
  · rintro ⟨typeName, owned⟩
    obtain ⟨before, other, mem⟩ := (owners name typeName).1 owned
    exact ⟨⟨typeName, before⟩, other, mem⟩
  · rintro ⟨⟨typeName, before⟩, other, mem⟩
    exact ⟨typeName, (owners name typeName).2 ⟨before, other, mem⟩⟩

/-- A name that was replaced goes on leading to an object that is unregistered. -/
theorem replaced_name_leads_to_unregistered :
    ¬ ∀ (operations : List Operation) (o : ObjectId),
      let r := empty.run operations
      let next := (r.step (.unregister o)).1
      r.objects.isAlive o = true →
        next.registry.nameOf? next.objects.isAlive o = none ∧
          ∀ name, next.registry.objectAt? next.objects.isAlive name ≠ some o := by
  intro complete
  have renamed := complete
    [.create "Frame".toList, .register "old".toList 0, .register "new".toList 0] 0
    (by decide +kernel)
  exact renamed.2 "old".toList (by decide +kernel)

end Roster

end ResourceLookup
