import ResourceLookup.Registry.Basic

/-!
# Pruning

What a registry tells is what its living entries tell: `getElem?_prune_names` and
`getElem?_prune_owners` say that the answers about the living are all that is left after pruning. So
it makes no difference whether the dead entries are still there, and every operation may as well be
carried out after pruning.

A new object is not taken for an old one, since no entry speaks of an object that is yet to come.
-/

namespace ResourceLookup

/-- What is there is kept by tests that agree about it. -/
theorem optionFilter_congr {α : Type} {x : Option α} {p q : α → Bool}
    (same : ∀ a, x = some a → p a = q a) : x.filter p = x.filter q := by
  cases x with
  | none => rfl
  | some a => simp only [Option.filter_some, same a rfl]

theorem optionFilter_eq_self {α : Type} {x : Option α} {p : α → Bool}
    (kept : ∀ a, x = some a → p a = true) : x.filter p = x := by
  cases x with
  | none => rfl
  | some a => exact Option.filter_some_pos (kept a rfl)

namespace Objects

variable {objects : Objects} {o p : ObjectId} {typeName : Text}

theorem lt_next_of_isAlive (h : objects.isAlive o = true) : o < objects.next := by
  rw [isAlive_eq_contains] at h
  exact objects.lt_next o h

theorem isAlive_of_typeOf? (h : objects.typeOf? o = some typeName) : objects.isAlive o = true := by
  rw [isAlive, h]
  rfl

theorem next_setType (objects : Objects) (o : ObjectId) (typeName : Text) :
    (objects.setType o typeName).next = objects.next := by
  rw [setType]
  split <;> rfl

/-- A change of type is no matter of life and death. -/
theorem isAlive_setType (objects : Objects) (o : ObjectId) (typeName : Text) :
    (objects.setType o typeName).isAlive = objects.isAlive := by
  funext p
  rw [setType]
  split
  · rename_i living
    simp only [isAlive, typeOf?, Std.ExtTreeMap.getElem?_insert]
    split
    · rename_i same
      obtain rfl := Std.LawfulEqCmp.compare_eq_iff_eq.1 same
      rw [Std.ExtTreeMap.isSome_getElem?_eq_contains]
      exact living.symm
    · rfl
  · rfl

end Objects

namespace Registry

variable {r r' : Registry} {alive alive' : ObjectId → Bool} {o p : ObjectId}
  {name typeName : Text} {next : ObjectId}

/-- A registry is what it has under every object and under every name. -/
theorem ext_getElem? (names : ∀ o : ObjectId, r.names[o]? = r'.names[o]?)
    (owners : ∀ name : Text, r.owners[name]? = r'.owners[name]?) : r = r' := by
  cases r
  cases r'
  rw [mk.injEq]
  exact ⟨Std.ExtTreeMap.ext_getElem? names, Std.ExtTreeMap.ext_getElem? owners⟩

section Answers

theorem getElem?_prune_names (r : Registry) (alive : ObjectId → Bool) (o : ObjectId) :
    (r.prune alive).names[o]? = r.nameOf? alive o := by
  rw [prune, nameOf?, Std.ExtTreeMap.getElem?_filter']
  cases alive o <;> cases r.names[o]? <;> rfl

theorem getElem?_names_of_nameOf? (h : r.nameOf? alive o = some name) :
    r.names[o]? = some name := by
  rw [nameOf?] at h
  split at h
  · exact h
  · cases h

theorem getElem?_prune_owners (r : Registry) (alive : ObjectId → Bool) (name : Text) :
    (r.prune alive).owners[name]? = r.ownerOf? alive name := by
  rw [prune, ownerOf?, Std.ExtTreeMap.getElem?_filter']

/-- The registries that give the same answers are those that are pruned to the same. -/
theorem prune_eq_iff : r.prune alive = r'.prune alive' ↔
    (∀ o, r.nameOf? alive o = r'.nameOf? alive' o) ∧
      ∀ name, r.ownerOf? alive name = r'.ownerOf? alive' name := by
  simp only [← getElem?_prune_names, ← getElem?_prune_owners]
  constructor
  · intro same
    rw [same]
    exact ⟨fun _ => rfl, fun _ => rfl⟩
  · rintro ⟨names, owners⟩
    exact ext_getElem? names owners

theorem nameOf?_drop (r : Registry) (objects : Objects) (o p : ObjectId) :
    r.nameOf? (objects.drop o).isAlive p = if p = o then none else r.nameOf? objects.isAlive p := by
  rw [nameOf?, Objects.isAlive_drop]
  by_cases same : p = o
  · simp [same]
  · simp [same, nameOf?]

/-- A name leads to its owner until the owner dies. -/
theorem ownerOf?_drop (r : Registry) (objects : Objects) (o : ObjectId) (name : Text) :
    r.ownerOf? (objects.drop o).isAlive name =
      (r.ownerOf? objects.isAlive name).filter fun owner => owner.object != o := by
  rw [ownerOf?, ownerOf?, Option.filter_filter]
  refine optionFilter_congr fun owner _ => ?_
  rw [Objects.isAlive_drop, Bool.and_comm]

end Answers

@[simp] theorem prune_empty (alive : ObjectId → Bool) : empty.prune alive = empty := by
  apply ext_getElem?
  · intro o
    simp [getElem?_prune_names, nameOf?, empty]
  · intro name
    simp [getElem?_prune_owners, ownerOf?, empty]

/-- Pruning after some more objects have died makes up for having pruned before. -/
theorem prune_prune (fewer : ∀ o, alive' o = true → alive o = true) (r : Registry) :
    (r.prune alive).prune alive' = r.prune alive' := by
  rw [prune_eq_iff]
  constructor
  · intro o
    rw [nameOf?, nameOf?, getElem?_prune_names, nameOf?]
    cases living : alive' o with
    | false => rfl
    | true => rw [fewer o living]; rfl
  · intro name
    rw [ownerOf?, ownerOf?, getElem?_prune_owners, ownerOf?, Option.filter_filter]
    congr 1
    funext owner
    cases living : alive' owner.object with
    | false => simp
    | true => simp [fewer _ living]

@[simp] theorem prune_prune_self (r : Registry) (alive : ObjectId → Bool) :
    (r.prune alive).prune alive = r.prune alive :=
  r.prune_prune fun _ living => living

/-- A registry is pruned before anything is recorded. -/
@[simp] theorem record_prune (r : Registry) (alive : ObjectId → Bool) (name : Text) (o : ObjectId)
    (typeName : Text) :
    (r.prune alive).record alive name o typeName = r.record alive name o typeName := by
  rw [record, record, prune_prune_self]

@[simp] theorem nameOf?_prune (r : Registry) (alive : ObjectId → Bool) (o : ObjectId) :
    (r.prune alive).nameOf? alive o = r.nameOf? alive o :=
  (prune_eq_iff.1 (r.prune_prune_self alive)).1 o

@[simp] theorem ownerOf?_prune (r : Registry) (alive : ObjectId → Bool) (name : Text) :
    (r.prune alive).ownerOf? alive name = r.ownerOf? alive name :=
  (prune_eq_iff.1 (r.prune_prune_self alive)).2 name

@[simp] theorem size_prune (r : Registry) (alive : ObjectId → Bool) :
    (r.prune alive).size alive = r.size alive :=
  congrArg (·.names.size) (r.prune_prune_self alive)

theorem register_prune (r : Registry) (alive : ObjectId → Bool) (name : Text) (o : ObjectId)
    (typeName : Text) :
    (r.prune alive).register alive name o typeName = r.register alive name o typeName := by
  rw [register, register, record_prune]

theorem registerChild_prune (r : Registry) (alive : ObjectId → Bool) (name : Text) (o : ObjectId)
    (typeName : Text) (parent : ObjectId) :
    (r.prune alive).registerChild alive name o typeName parent =
      r.registerChild alive name o typeName parent := by
  simp only [registerChild, nameOf?_prune, record_prune]

section Entries

theorem getElem?_record_names (r : Registry) (alive : ObjectId → Bool) (name : Text)
    (o : ObjectId) (typeName : Text) (p : ObjectId) :
    (r.record alive name o typeName).names[p]? =
      if o = p then some name else r.nameOf? alive p := by
  rw [record, Std.ExtTreeMap.getElem?_insert, getElem?_prune_names]
  simp only [Std.LawfulEqCmp.compare_eq_iff_eq]

/-- A new entry under a name gives way to that of a living object. -/
theorem getElem?_record_owners (r : Registry) (alive : ObjectId → Bool) (name : Text)
    (o : ObjectId) (typeName other : Text) :
    (r.record alive name o typeName).owners[other]? =
      if name = other then some ((r.ownerOf? alive name).getD ⟨o, typeName⟩)
      else r.ownerOf? alive other := by
  rw [record, Std.ExtTreeMap.getElem?_insertIfNew, ← getElem?_prune_owners,
    ← getElem?_prune_owners]
  simp only [Std.ExtTreeMap.mem_iff_isSome_getElem?, Std.LawfulEqCmp.compare_eq_iff_eq]
  by_cases same : name = other
  · subst same
    cases (r.prune alive).owners[name]? <;> simp
  · simp [same]

theorem getElem?_forget_names (r : Registry) (o p : ObjectId) :
    (r.forget o).names[p]? = if o = p then none else r.names[p]? := by
  rw [forget]
  cases named : r.names[o]? with
  | none =>
    by_cases same : o = p
    · subst same
      simp [named]
    · simp [same]
  | some name => simp [Std.ExtTreeMap.getElem?_erase]

/-- An object is forgotten under its present name only. -/
theorem getElem?_forget_owners (r : Registry) (o : ObjectId) (name : Text) :
    (r.forget o).owners[name]? =
      r.owners[name]?.filter fun owner => !(owner.object == o && r.names[o]? == some name) := by
  rw [forget]
  cases named : r.names[o]? with
  | none => exact (optionFilter_eq_self fun _ _ => by simp).symm
  | some present =>
    by_cases same : present = name
    · subst same
      cases found : r.owners[present]? with
      | none => simp [found]
      | some owner =>
        by_cases own : owner.object = o <;>
          simp [found, own, Option.filter_some]
    · have kept : r.owners[name]?.filter
          (fun owner => !(owner.object == o && some present == some name)) = r.owners[name]? :=
        optionFilter_eq_self fun _ _ => by simp [same]
      rw [kept]
      show (if r.owners[present]?.any (·.object == o) then r.owners.erase present
        else r.owners)[name]? = _
      split
      · rw [Std.ExtTreeMap.getElem?_erase, if_neg (by simpa using same)]
      · rfl

theorem nameOf?_forget (r : Registry) (alive : ObjectId → Bool) (o p : ObjectId) :
    (r.forget o).nameOf? alive p = if o = p then none else r.nameOf? alive p := by
  rw [nameOf?, nameOf?, getElem?_forget_names]
  split <;> split <;> rfl

theorem ownerOf?_forget (r : Registry) (alive : ObjectId → Bool) (o : ObjectId) (name : Text) :
    (r.forget o).ownerOf? alive name =
      (r.ownerOf? alive name).filter
        fun owner => !(owner.object == o && r.names[o]? == some name) := by
  rw [ownerOf?, ownerOf?, getElem?_forget_owners, Option.filter_filter, Option.filter_filter]
  congr 1
  funext owner
  exact Bool.and_comm ..

end Entries

/-- A registry in which a living object was recorded has no dead entries. -/
theorem prune_record (living : alive o = true) (r : Registry) (name typeName : Text) :
    (r.record alive name o typeName).prune alive = r.record alive name o typeName := by
  apply ext_getElem?
  · intro p
    rw [getElem?_prune_names, nameOf?, getElem?_record_names]
    by_cases same : o = p
    · subst same
      simp [living]
    · rw [if_neg same, nameOf?]
      split <;> rfl
  · intro other
    rw [getElem?_prune_owners, ownerOf?, getElem?_record_owners]
    by_cases same : name = other
    · subst same
      rw [if_pos rfl]
      cases found : r.ownerOf? alive name with
      | none => simp [living]
      | some owner =>
        have kept := (Option.filter_eq_some_iff.1 found).2
        simpa using kept
    · rw [if_neg same, ownerOf?, Option.filter_filter]
      simp

theorem nameOf?_record (living : alive o = true) (r : Registry) (name typeName : Text)
    (p : ObjectId) :
    (r.record alive name o typeName).nameOf? alive p =
      if o = p then some name else r.nameOf? alive p := by
  rw [← getElem?_prune_names, prune_record living, getElem?_record_names]

theorem ownerOf?_record (living : alive o = true) (r : Registry) (name typeName other : Text) :
    (r.record alive name o typeName).ownerOf? alive other =
      if name = other then some ((r.ownerOf? alive name).getD ⟨o, typeName⟩)
      else r.ownerOf? alive other := by
  rw [← getElem?_prune_owners, prune_record living, getElem?_record_owners]

/-- A registration that succeeds records the name. -/
theorem record_of_register {registered : Registry}
    (outcome : r.register alive name o typeName = .ok registered) :
    registered = r.record alive name o typeName := by
  rw [register] at outcome
  split at outcome
  · exact (Except.ok.inj outcome).symm
  · cases outcome

/-- A registration below a parent that succeeds records the name below that of the parent. -/
theorem record_of_registerChild {parent : ObjectId} {registered : Registry}
    (outcome : r.registerChild alive name o typeName parent = .ok registered) :
    ∃ parentName, r.nameOf? alive parent = some parentName ∧
      registered = r.record alive (parentName ++ '.' :: name) o typeName := by
  rw [registerChild] at outcome
  split at outcome
  · split at outcome
    · rename_i parentName named
      exact ⟨parentName, named, (Except.ok.inj outcome).symm⟩
    · cases outcome
  · cases outcome

/-- The name of a living object is forgotten alike before and after pruning. -/
theorem prune_forget (living : alive o = true) (r : Registry) :
    (r.forget o).prune alive = (r.prune alive).forget o := by
  apply ext_getElem?
  · intro p
    rw [getElem?_prune_names, nameOf?_forget, getElem?_forget_names, getElem?_prune_names]
  · intro name
    rw [getElem?_prune_owners, ownerOf?_forget, getElem?_forget_owners, getElem?_prune_owners,
      getElem?_prune_names, nameOf?, if_pos living]

/-- Everything on record was recorded about objects whose identities come before `next`. -/
structure Precedes (r : Registry) (next : ObjectId) : Prop where
  names : ∀ (o : ObjectId) (name : Text), r.names[o]? = some name → o < next
  owners : ∀ (name : Text) (owner : Owner), r.owners[name]? = some owner → owner.object < next

theorem precedes_empty (next : ObjectId) : empty.Precedes next where
  names o name h := by simp [empty] at h
  owners name owner h := by simp [empty] at h

namespace Precedes

theorem mono {later : ObjectId} (h : r.Precedes next) (le : next ≤ later) : r.Precedes later where
  names o name named := Nat.lt_of_lt_of_le (h.names o name named) le
  owners name owner owned := Nat.lt_of_lt_of_le (h.owners name owner owned) le

theorem prune (h : r.Precedes next) : (r.prune alive).Precedes next where
  names o name named := by
    rw [getElem?_prune_names, nameOf?] at named
    split at named
    · exact h.names o name named
    · cases named
  owners name owner owned := by
    rw [getElem?_prune_owners, ownerOf?, Option.filter_eq_some_iff] at owned
    exact h.owners name owner owned.1

theorem record (h : r.Precedes next) (lt : o < next) :
    (r.record alive name o typeName).Precedes next where
  names p found named := by
    rw [getElem?_record_names, ← getElem?_prune_names] at named
    split at named
    · rename_i same
      exact same ▸ lt
    · exact h.prune.names p found named
  owners other owner owned := by
    rw [getElem?_record_owners, ← getElem?_prune_owners, ← getElem?_prune_owners] at owned
    split at owned
    · cases found : (r.prune alive).owners[name]? with
      | none =>
        rw [found] at owned
        cases owned
        exact lt
      | some first =>
        rw [found] at owned
        cases owned
        exact h.prune.owners name _ found
    · exact h.prune.owners other owner owned

theorem forget (h : r.Precedes next) (o : ObjectId) : (r.forget o).Precedes next where
  names p found named := by
    rw [getElem?_forget_names] at named
    split at named
    · cases named
    · exact h.names p found named
  owners name owner owned := by
    rw [getElem?_forget_owners, Option.filter_eq_some_iff] at owned
    exact h.owners name owner owned.1

/-- A new object has no entries, and so it does not keep any from being pruned. -/
theorem prune_create {objects : Objects} (h : r.Precedes objects.next) (typeName : Text) :
    r.prune (objects.create typeName).1.isAlive = r.prune objects.isAlive := by
  rw [prune_eq_iff]
  constructor
  · intro o
    rw [nameOf?, nameOf?, Objects.isAlive_create]
    cases named : r.names[o]? with
    | none => simp
    | some name =>
      have old : (o == objects.next) = false := by
        simpa using Nat.ne_of_lt (h.names o name named)
      rw [old, Bool.false_or]
  · intro name
    rw [ownerOf?, ownerOf?]
    apply optionFilter_congr
    intro owner owned
    have old : (owner.object == objects.next) = false := by
      simpa using Nat.ne_of_lt (h.owners name owner owned)
    rw [Objects.isAlive_create, old, Bool.false_or]

end Precedes

end Registry

end ResourceLookup
