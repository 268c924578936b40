import ResourceLookup.Proofs.Registry.Names
import ResourceLookup.Proofs.Session.Run

/-!
# Registrations in a session

Few operations of a session concern the registry. `Registry.Change` says all that one of them can do
to it, a relative lookup of an object without a name included: it enters the object under the
reserved name and takes the entry out again. As nothing valid is ever called by that name, the entry
meets no other one, and only dead entries are gone when it is taken out.
-/

namespace ResourceLookup

/-- The reserved name cannot be a part of a registered one. -/
theorem not_mem_splitOn_of_isValidPath {path : Text} (h : isValidPath path = true) :
    probeName ∉ path.splitOn '.' := by
  intro part
  have valid := isValidPath_iff.1 h probeName part
  rw [isValidName_probeName] at valid
  cases valid

theorem isValidPath_probeName : isValidPath probeName = false := by
  rw [← Bool.not_eq_true, isValidPath_iff]
  intro valid
  have single : probeName.splitOn '.' = [probeName] := by decide +kernel
  rw [single, List.forall_mem_singleton, isValidName_probeName] at valid
  cases valid

namespace Registry

/-- What one operation can do to a registry while the given objects live. -/
inductive Change (alive : ObjectId → Bool) (r : Registry) : Registry → Prop where
  | keep : Change alive r r
  | clear : Change alive r empty
  | register {o : ObjectId} {name : Text} (living : alive o = true)
      (path : isValidPath name = true) (typeName : Text) :
      Change alive r (r.record alive name o typeName)
  | registerChild {o parent : ObjectId} {name parentName : Text} (living : alive o = true)
      (named : r.nameOf? alive parent = some parentName) (valid : isValidName name = true)
      (typeName : Text) :
      Change alive r (r.record alive (parentName ++ '.' :: name) o typeName)
  | unregister {o : ObjectId} (living : alive o = true) : Change alive r (r.forget o)
  | probe {o : ObjectId} (living : alive o = true) (nameless : r.nameOf? alive o = none)
      (typeName : Text) :
      Change alive r ((r.record alive probeName o typeName).forget o)

variable {r r' : Registry} {alive : ObjectId → Bool} {o p : ObjectId} {name typeName : Text}
  {next later : ObjectId}

theorem change_of_register (living : alive o = true)
    (outcome : r.register alive name o typeName = .ok r') : Change alive r r' := by
  rw [register] at outcome
  split at outcome
  · rename_i path
    cases outcome
    exact .register living path typeName
  · cases outcome

theorem change_of_registerChild {parent : ObjectId} (living : alive o = true)
    (outcome : r.registerChild alive name o typeName parent = .ok r') : Change alive r r' := by
  rw [registerChild] at outcome
  split at outcome
  · rename_i valid
    split at outcome
    · rename_i parentName named
      cases outcome
      exact .registerChild living named valid typeName
    · cases outcome
  · cases outcome

/-- A name that nobody has, entered for an object without a name and taken out again, leaves what
the living have. -/
theorem forget_record (nameless : r.nameOf? alive o = none)
    (free : r.ownerOf? alive name = none) :
    (r.record alive name o typeName).forget o = r.prune alive := by
  have own : (r.record alive name o typeName).names[o]? = some name := by
    rw [getElem?_record_names, if_pos rfl]
  apply ext_getElem?
  · intro p
    rw [getElem?_forget_names, getElem?_record_names, getElem?_prune_names]
    by_cases same : o = p
    · subst same
      rw [if_pos rfl, nameless]
    · rw [if_neg same, if_neg same]
  · intro other
    rw [getElem?_forget_owners, getElem?_record_owners, getElem?_prune_owners, own]
    by_cases same : name = other
    · subst same
      rw [if_pos rfl, free]
      exact Option.filter_some_neg (by simp)
    · rw [if_neg same]
      exact optionFilter_eq_self fun _ _ => by simp [same]

/-- A registry as it comes about: its entries are paths of valid names for objects that have come
into being. -/
structure Sound (r : Registry) (next : ObjectId) : Prop where
  precedes : r.Precedes next
  names : r.HasValidNames
  owners : ∀ (name : Text) (owner : Owner), r.owners[name]? = some owner → isValidPath name = true

theorem sound_empty (next : ObjectId) : empty.Sound next where
  precedes := precedes_empty next
  names := hasValidNames_empty
  owners name owner h := by simp [empty] at h

namespace Sound

theorem mono (h : r.Sound next) (le : next ≤ later) : r.Sound later :=
  { h with precedes := h.precedes.mono le }

theorem prune (h : r.Sound next) (alive : ObjectId → Bool) : (r.prune alive).Sound next where
  precedes := h.precedes.prune
  names := h.names.prune
  owners name owner owned := by
    rw [getElem?_prune_owners, ownerOf?, Option.filter_eq_some_iff] at owned
    exact h.owners name owner owned.1

theorem record (h : r.Sound next) (before : o < next) (path : isValidPath name = true) :
    (r.record alive name o typeName).Sound next where
  precedes := h.precedes.record before
  names := h.names.record path
  owners other owner owned := by
    rw [getElem?_record_owners] at owned
    split at owned
    · rename_i same
      exact same ▸ path
    · rw [← getElem?_prune_owners] at owned
      exact (h.prune alive).owners other owner owned

theorem forget (h : r.Sound next) (o : ObjectId) : (r.forget o).Sound next where
  precedes := h.precedes.forget o
  names := h.names.forget
  owners name owner owned := by
    rw [getElem?_forget_owners, Option.filter_eq_some_iff] at owned
    exact h.owners name owner owned.1

/-- Nobody is found under the reserved name. -/
theorem ownerOf?_probeName (h : r.Sound next) (alive : ObjectId → Bool) :
    r.ownerOf? alive probeName = none := by
  rw [← getElem?_prune_owners]
  cases found : (r.prune alive).owners[probeName]? with
  | none => rfl
  | some owner =>
    have valid := (h.prune alive).owners probeName owner found
    rw [isValidPath_probeName] at valid
    cases valid

/-- A relative lookup only prunes. -/
theorem forget_probe (h : r.Sound next) (nameless : r.nameOf? alive o = none) (typeName : Text) :
    (r.record alive probeName o typeName).forget o = r.prune alive :=
  forget_record nameless (h.ownerOf?_probeName alive)

theorem change {objects : Objects} (h : r.Sound objects.next)
    (change : Change objects.isAlive r r') : r'.Sound objects.next := by
  cases change with
  | keep => exact h
  | clear => exact sound_empty _
  | register living path => exact h.record (Objects.lt_next_of_isAlive living) path
  | @registerChild o parent name parentName living named valid =>
    have path := h.names parent parentName (getElem?_names_of_nameOf? named)
    exact h.record (Objects.lt_next_of_isAlive living) (isValidPath_below path valid)
  | unregister => exact h.forget _
  | probe _ nameless =>
    rw [h.forget_probe nameless]
    exact h.prune _

end Sound

end Registry

namespace Store

theorem registry_insertText (s : Store) (raw value : Text) :
    ((s.insertText raw value).toOption.getD s).registry = s.registry := by
  rw [insertText]
  cases Key.parse raw <;> rfl

theorem registry_insertAll (s : Store) (entries : List Entry) :
    (s.insertAll entries).1.registry = s.registry := by
  rw [insertAll_eq]
  induction entries generalizing s with
  | nil => rfl
  | cons e entries ih =>
    rw [List.foldl_cons, ih, insertEntry_eq]
    exact s.registry_insertText e.key e.value

theorem registry_insertRelative (s : Store) (objects : Objects) (o : ObjectId)
    (typeName raw : Text) (value : Value) :
    ((s.insertRelative objects o typeName raw value).toOption.getD s).registry = s.registry := by
  cases valid : Key.isValid raw with
  | false =>
    rw [insertRelative_of_not_isValid valid]
    rfl
  | true =>
    have read := Key.parse_of_isValid valid
    cases named : s.registry.nameOf? objects.isAlive o with
    | none =>
      rw [insertRelative_of_nameOf?_eq_none named]
      rfl
    | some name =>
      cases found : s.tree.findPath? name with
      | some start =>
        rw [insertRelative_of_findPath? read named found]
        rfl
      | none =>
        rw [insertRelative_of_findPath?_eq_none read named found]
        cases (Key.parse name).bind (·.join raw) <;> rfl

variable {s : Store} {objects : Objects} {o : ObjectId}

open Registry

theorem change_resolveRelative (living : objects.isAlive o = true) (typeName raw : Text) :
    Change objects.isAlive s.registry
      (s.resolveRelative objects o typeName raw).1.registry := by
  rw [resolveRelative]
  split
  · cases named : s.registry.nameOf? objects.isAlive o with
    | some name => exact .keep
    | none => exact .probe living named typeName
  · exact .keep

theorem change_map {alive : ObjectId → Bool} {outcome : Except Error Registry}
    (changed : ∀ registry, outcome = .ok registry → Change alive s.registry registry) :
    Change alive s.registry
      ((outcome.map fun registry => { s with registry }).toOption.getD s).registry := by
  cases outcome with
  | error e => exact .keep
  | ok registry => exact changed registry rfl

end Store

namespace Session

variable {s : Session}

open Registry

theorem change_withObject {o : ObjectId} {act : Text → Session × Logged Reply}
    (acts : ∀ typeName, s.objects.isAlive o = true →
      Change s.objects.isAlive s.store.registry (act typeName).1.store.registry) :
    Change s.objects.isAlive s.store.registry (s.withObject o act).1.store.registry := by
  rw [withObject]
  cases living : s.objects.typeOf? o with
  | none => exact .keep
  | some typeName => exact acts typeName (Objects.isAlive_of_typeOf? living)

/-- An operation changes the registry in one of the listed ways. -/
theorem change_step (s : Session) (op : Operation) :
    Change s.objects.isAlive s.store.registry (s.step op).1.store.registry := by
  cases op with
  | insert raw value =>
    rw [step, store_attempt, Store.insert, Store.registry_insertText]
    exact .keep
  | insertList raw values =>
    rw [step, store_attempt, Store.insertList, Store.registry_insertText]
    exact .keep
  | insertRelative o raw value =>
    apply change_withObject
    intro typeName _
    rw [store_attempt, Store.registry_insertRelative]
    exact .keep
  | insertPairs pairs =>
    show Change _ _ (s.store.insertAll _).1.registry
    rw [Store.registry_insertAll]
    exact .keep
  | readResources source =>
    show Change _ _ (s.store.readResources source).1.registry
    rw [Store.readResources_eq, Store.registry_insertAll]
    exact .keep
  | loadFile name =>
    show Change _ _ (s.loader.loadFile s.store name).1.registry
    rw [Loader.loadFile_eq, Store.registry_insertAll]
    exact .keep
  | loadFiles name =>
    show Change _ _ (s.loader.loadFiles s.store s.objects name).1.registry
    rw [Loader.loadFiles_eq, Store.registry_insertAll]
    exact .keep
  | describe o => exact change_withObject fun _ _ => .keep
  | resolveRelative o raw =>
    exact change_withObject fun typeName living => Store.change_resolveRelative living typeName raw
  | register name o =>
    apply change_withObject
    intro typeName living
    rw [store_attempt]
    exact Store.change_map fun _ registered => change_of_register living registered
  | registerChild name o parent =>
    apply change_withObject
    intro typeName living
    apply change_withObject
    intro _ _
    rw [store_attempt]
    exact Store.change_map fun _ registered => change_of_registerChild living registered
  | unregister o => exact change_withObject fun _ living => .unregister living
  | unregisterAll => exact .clear
  | reset => exact .clear
  | _ => exact .keep

theorem objects_attempt (s : Session) (outcome : Except Error Store) :
    (s.attempt outcome).1.objects = s.objects := by
  cases outcome <;> rfl

theorem objects_withObject {o : ObjectId} {act : Text → Session × Logged Reply}
    (acts : ∀ typeName, (act typeName).1.objects = s.objects) :
    (s.withObject o act).1.objects = s.objects := by
  rw [withObject]
  cases s.objects.typeOf? o with
  | none => rfl
  | some typeName => exact acts typeName

/-- Identities are never given back. -/
theorem next_le_step (s : Session) (op : Operation) :
    s.objects.next ≤ (s.step op).1.objects.next := by
  cases op with
  | create typeName => exact Nat.le_succ _
  | setType o typeName => exact (s.objects.next_setType o typeName).ge
  | insert => exact (congrArg Objects.next (objects_attempt ..)).ge
  | insertList => exact (congrArg Objects.next (objects_attempt ..)).ge
  | insertRelative | register =>
    exact (congrArg Objects.next (objects_withObject fun _ => objects_attempt ..)).ge
  | registerChild =>
    exact (congrArg Objects.next (objects_withObject fun _ =>
      objects_withObject fun _ => objects_attempt ..)).ge
  | describe | resolveRelative | unregister =>
    exact (congrArg Objects.next (objects_withObject (s := s) fun _ => rfl)).ge
  | _ => exact Nat.le_refl _

/-- The registry of a session is sound. -/
def Sound (s : Session) : Prop := s.store.registry.Sound s.objects.next

theorem sound_start (hierarchy : Hierarchy) (loader : Loader) : (start hierarchy loader).Sound :=
  Registry.sound_empty _

theorem sound_step (h : s.Sound) (op : Operation) : (s.step op).1.Sound :=
  (h.change (s.change_step op)).mono (s.next_le_step op)

theorem sound_run (h : s.Sound) (operations : List Operation) : (s.run operations).Sound := by
  induction operations generalizing s with
  | nil => exact h
  | cons op rest ih => exact ih (sound_step h op)

end Session

end ResourceLookup
