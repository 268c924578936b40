import ResourceLookup.Proofs.Session.Registrations
import ResourceLookup.Proofs.Store.Loading

/-!
# Refused operations

Whether an operation fails, and with which error, is told from its arguments, from the names that
objects have, and from the files: `Session.refusal` is the table. No other failure ever shows, since
the keys that are put together from a name and a relative key are well formed if their parts are. An
operation that is refused leaves the session as it was, with the one exception of loading a file
together with further ones.
-/

namespace ResourceLookup

namespace Key

/-- The reserved name, as a key. -/
def probe : Key := ⟨probeName, by decide +kernel, by decide +kernel⟩

/-- What stands below a key is a key if it is one by itself. -/
theorem refusal_below (k : Key) {raw : Text} (valid : isValid raw = true) :
    refusal (Store.below k.text raw) = none :=
  if_pos (k.isValid_text_append_iff.2 valid)

end Key

/-- The error with which a name is refused for a registration. -/
def nameRefusal (valid : Text → Bool) (name : Text) : Option Error :=
  if valid name then none else some (.invalidName name)

namespace Registry

variable (r : Registry) (alive : ObjectId → Bool) (name : Text) (o : ObjectId) (typeName : Text)

theorem ofOutcome?_register :
    Error.ofOutcome? (r.register alive name o typeName) = nameRefusal isValidPath name := by
  rw [register, nameRefusal]
  split <;> rfl

theorem ofOutcome?_registerChild (parent : ObjectId) :
    Error.ofOutcome? (r.registerChild alive name o typeName parent) =
      (nameRefusal isValidName name).or
        (if r.nameOf? alive parent = none then some (.unregisteredParent name) else none) := by
  rw [registerChild, nameRefusal]
  split
  · cases r.nameOf? alive parent <;> rfl
  · rfl

end Registry

namespace Store

variable {s : Store} {objects : Objects} {o : ObjectId} {next : ObjectId}

theorem ofOutcome?_insertText (s : Store) (raw stored : Text) :
    Error.ofOutcome? (s.insertText raw stored) = Key.refusal raw := by
  rw [insertText, Error.ofOutcome?_map, Key.ofOutcome?_parse]

theorem ofOutcome?_fetch {α : Type} (read : Text → Option α) (s : Store) (objects : Objects)
    (raw : Text) (default : α) :
    Error.ofOutcome? (s.fetch read objects raw default) = Key.refusal raw := by
  rw [fetch, Error.ofOutcome?_map, fetchText, Error.ofOutcome?_map, ofOutcome?_resolve]

theorem ofOutcome?_writeResources (s : Store) (header : Option Text) (sink : Sink) :
    Error.ofOutcome? (s.writeResources header sink) =
      if sink.capacity.any (· < (s.written header).utf8.length) then some (.io sink.cause)
      else none := by
  rw [writeResources, Sink.write]
  split <;> rfl

/-- No more is asked of a key that is relative to an object than that it be well formed. -/
theorem ofOutcome?_resolveRelative (sound : s.registry.Sound next) (objects : Objects)
    (o : ObjectId) (typeName raw : Text) :
    Error.ofOutcome? (s.resolveRelative objects o typeName raw).2 = Key.refusal raw := by
  rw [resolveRelative]
  split
  · rename_i valid
    have accepted : Key.refusal raw = none := if_pos valid
    cases named : s.registry.nameOf? objects.isAlive o with
    | some name =>
      obtain ⟨key, -, rfl⟩ := exists_key_of_isValidPath
        (sound.names o name (Registry.getElem?_names_of_nameOf? named))
      rw [ofOutcome?_resolve, key.refusal_below valid, accepted]
    | none =>
      rw [ofOutcome?_resolve, accepted]
      exact Key.probe.refusal_below valid
  · rename_i invalid
    rw [Key.refusal, if_neg invalid]
    rfl

theorem resolveRelative_of_refusal {raw : Text} {e : Error} (refused : Key.refusal raw = some e)
    (typeName : Text) : (s.resolveRelative objects o typeName raw).1 = s := by
  rw [Key.refusal] at refused
  rw [resolveRelative]
  split
  · rename_i valid
    rw [if_pos valid] at refused
    cases refused
  · rfl

/-- The name of an object and a relative key always join to a key. -/
theorem ofOutcome?_insertRelative (sound : s.registry.Sound next) (objects : Objects)
    (o : ObjectId) (typeName raw : Text) (value : Value) :
    Error.ofOutcome? (s.insertRelative objects o typeName raw value) =
      (Key.refusal raw).or
        (if s.registry.nameOf? objects.isAlive o = none then some (.unregisteredObject typeName)
        else none) := by
  cases valid : Key.isValid raw with
  | false =>
    rw [insertRelative_of_not_isValid valid, Key.refusal, valid]
    rfl
  | true =>
    have read := Key.parse_of_isValid valid
    have accepted : Key.refusal raw = none := if_pos valid
    rw [accepted, Option.none_or]
    cases named : s.registry.nameOf? objects.isAlive o with
    | none =>
      simp only [insertRelative, read, named]
      rfl
    | some name =>
      obtain ⟨key, readName, rfl⟩ := exists_key_of_isValidPath
        (sound.names o name (Registry.getElem?_names_of_nameOf? named))
      cases found : s.tree.findPath? key.text with
      | some start =>
        rw [insertRelative_of_findPath? read named found]
        rfl
      | none =>
        rw [insertRelative_of_findPath?_eq_none read named found, readName, Error.ofOutcome?_map]
        exact (Key.ofOutcome?_parse _).trans (key.refusal_below valid)

end Store

namespace Session

/-- The error with which an operation is refused, if it is. An operation of a dead object is not, as
it does nothing. -/
def refusal (s : Session) : Operation → Option Error
  | .resolve key | .insert key _ | .insertList key _ => Key.refusal key
  | .fetchInt key _ | .fetchFloat key _ | .fetchBool key _ => Key.refusal key
  | .resolveRelative o key => (s.objects.typeOf? o).bind fun _ => Key.refusal key
  | .insertRelative o key _ => (s.objects.typeOf? o).bind fun typeName =>
    (Key.refusal key).or <|
      if s.store.registry.nameOf? s.objects.isAlive o = none then
        some (.unregisteredObject typeName)
      else none
  | .register name o => (s.objects.typeOf? o).bind fun _ => nameRefusal isValidPath name
  | .registerChild name o parent => (s.objects.typeOf? o).bind fun _ =>
    (s.objects.typeOf? parent).bind fun _ =>
      (nameRefusal isValidName name).or <|
        if s.store.registry.nameOf? s.objects.isAlive parent = none then
          some (.unregisteredParent name)
        else none
  | .readResources source => source.failure.map .io
  | .loadFile name => s.loader.refusal name
  | .loadFiles name =>
    s.loader.filesRefusal (s.loader.loadFile s.store name).1 s.objects name
  | .writeResources header sink =>
    if sink.capacity.any (· < (s.store.written header).utf8.length) then some (.io sink.cause)
    else none
  | _ => none

/-- What comes of an operation that is refused with an error or else carried out: there is no other
failure, and after this one the session is what it was. -/
structure Heeds (s : Session) (refusal : Option Error) (done : Session × Logged Reply) : Prop where
  error : Error.ofOutcome? done.2.outcome = refusal
  session : ∀ e, refusal = some e → done.1 = s

variable {s : Session} {refusal : Option Error}

theorem heeds_tell {α : Type} {outcome : Except Error α}
    (fails : Error.ofOutcome? outcome = refusal) (reply : α → Reply) :
    s.Heeds refusal (s.tell (outcome.map reply)) :=
  ⟨(Error.ofOutcome?_map ..).trans fails, fun _ _ => rfl⟩

theorem heeds_attempt {outcome : Except Error Store} (fails : Error.ofOutcome? outcome = refusal) :
    s.Heeds refusal (s.attempt outcome) := by
  subst fails
  cases outcome with
  | ok store => exact ⟨rfl, fun _ refused => by cases refused⟩
  | error e => exact ⟨rfl, fun _ _ => rfl⟩

theorem heeds_answer {α : Type} {done : Store × Logged α}
    (fails : Error.ofOutcome? done.2.outcome = refusal)
    (kept : ∀ e, refusal = some e → done.1 = s.store) (reply : α → Reply) :
    s.Heeds refusal (s.answer done.1 (done.2.map reply)) :=
  ⟨(Error.ofOutcome?_map ..).trans fails,
    fun e refused => congrArg (fun store => { s with store }) (kept e refused)⟩

theorem heeds_success {done : Session × Logged Reply} {reply : Reply}
    (success : done.2.outcome = .ok reply) : s.Heeds none done :=
  ⟨by rw [success]; rfl, fun _ refused => by cases refused⟩

theorem heeds_withObject {o : ObjectId} {refusal : Text → Option Error}
    {act : Text → Session × Logged Reply}
    (acts : ∀ typeName, s.Heeds (refusal typeName) (act typeName)) :
    s.Heeds ((s.objects.typeOf? o).bind refusal) (s.withObject o act) := by
  rw [withObject]
  cases s.objects.typeOf? o with
  | none => exact heeds_success rfl
  | some typeName => exact acts typeName

/-- An operation fails with the error with which it is refused, or not at all, and in failing it
changes nothing. -/
theorem heeds_step (sound : s.Sound) {op : Operation} (single : ∀ name, op ≠ .loadFiles name) :
    s.Heeds (s.refusal op) (s.step op) := by
  cases op with
  | resolve raw => exact heeds_tell (s.store.ofOutcome?_resolve ..) _
  | insert raw value => exact heeds_attempt (s.store.ofOutcome?_insertText ..)
  | insertList raw values => exact heeds_attempt (s.store.ofOutcome?_insertText ..)
  | fetchInt raw default => exact heeds_tell (s.store.ofOutcome?_fetch ..) _
  | fetchFloat raw default => exact heeds_tell (s.store.ofOutcome?_fetch ..) _
  | fetchBool raw default => exact heeds_tell (s.store.ofOutcome?_fetch ..) _
  | resolveRelative o raw =>
    apply heeds_withObject
    intro typeName
    exact @heeds_answer s _ _ ⟨_, .quiet (s.store.resolveRelative s.objects o typeName raw).2⟩
      (Store.ofOutcome?_resolveRelative sound ..)
      (fun e refused => Store.resolveRelative_of_refusal refused typeName) .value
  | insertRelative o raw value =>
    exact heeds_withObject fun typeName => heeds_attempt (Store.ofOutcome?_insertRelative sound ..)
  | register name o =>
    apply heeds_withObject
    intro typeName
    apply heeds_attempt
    exact (Error.ofOutcome?_map ..).trans (Registry.ofOutcome?_register ..)
  | registerChild name o parent =>
    apply heeds_withObject
    intro typeName
    apply heeds_withObject
    intro _
    apply heeds_attempt
    exact (Error.ofOutcome?_map ..).trans (Registry.ofOutcome?_registerChild ..)
  | readResources source =>
    apply heeds_answer (s.store.ofOutcome?_readResources source)
    intro e refused
    obtain ⟨cause, failure, -⟩ := Option.map_eq_some_iff.1 refused
    exact s.store.readResources_of_failure failure
  | loadFile name =>
    exact heeds_answer (s.loader.ofOutcome?_loadFile s.store name)
      (fun e refused => s.loader.loadFile_of_refusal refused s.store) _
  | loadFiles name => exact absurd rfl (single name)
  | writeResources header sink => exact heeds_tell (s.store.ofOutcome?_writeResources ..) _
  | describe o | unregister o =>
    rw [step, withObject]
    cases s.objects.typeOf? o <;> exact heeds_success rfl
  | _ => exact heeds_success rfl

theorem ofOutcome?_step (sound : s.Sound) (op : Operation) :
    Error.ofOutcome? (s.step op).2.outcome = s.refusal op := by
  by_cases chained : ∃ name, op = .loadFiles name
  · obtain ⟨name, rfl⟩ := chained
    exact (Error.ofOutcome?_map ..).trans (s.loader.ofOutcome?_loadFiles s.store s.objects name)
  · exact (heeds_step sound fun name same => chained ⟨name, same⟩).error

/-- After any run, an operation fails exactly with the error with which it is refused. The session
is the same after the failure, unless a file was to be loaded together with further ones. -/
theorem step_fails_iff_refused (hierarchy : Hierarchy) (loader : Loader) (before : List Operation)
    (op : Operation) (e : Error) :
    let s := (start hierarchy loader).run before
    ((s.step op).2.outcome = .error e ↔ s.refusal op = some e) ∧
      ((∀ name, op ≠ .loadFiles name) → (s.step op).2.outcome = .error e → (s.step op).1 = s) := by
  intro s
  have sound : s.Sound := sound_run (sound_start hierarchy loader) before
  have fails : (s.step op).2.outcome = .error e ↔ s.refusal op = some e := by
    rw [← ofOutcome?_step sound, Error.ofOutcome?_eq_some_iff]
  exact ⟨fails, fun single failed => (heeds_step sound single).session e (fails.1 failed)⟩

/-- A key relative to an object that was unregistered, with a node under its former name. -/
theorem step_fails_iff_refused_of_nameless :
    let s := (start TypeTable.empty ⟨.standard, ⟨∅, []⟩⟩).run
      [.create "Panel".toList, .register "app.x".toList 0, .insert "app.x".toList (.single ['1']),
        .unregister 0]
    let op : Operation := .insertRelative 0 "*title".toList (.single ['2'])
    (s.step op).2.outcome = .error (.unregisteredObject "Panel".toList) ∧ (s.step op).1 = s := by
  intro s op
  have refused : s.refusal op = some (.unregisteredObject "Panel".toList) := by decide +kernel
  obtain ⟨fails, keeps⟩ := step_fails_iff_refused TypeTable.empty ⟨.standard, ⟨∅, []⟩⟩
    [.create "Panel".toList, .register "app.x".toList 0, .insert "app.x".toList (.single ['1']),
      .unregister 0] op (.unregisteredObject "Panel".toList)
  have failed := fails.2 refused
  exact ⟨failed, keeps (by simp [op]) failed⟩

end Session

end ResourceLookup
