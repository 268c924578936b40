import ResourceLookup.Proofs.Session.Registrations

/-!
# Relative lookups leave no trace

A session without its registrations of dead objects answers every operation as the session itself
does, and the two remain alike: `step_pruned` for one operation, `replies_pruned` for any number of
them. All that a relative lookup does to a store is to prune its registry, so that nobody can tell
afterwards whether there was one.
-/

namespace ResourceLookup

namespace Store

/-- The store without the registrations of dead objects. -/
def pruned (s : Store) (objects : Objects) : Store :=
  { s with registry := s.registry.prune objects.isAlive }

variable (s : Store) (objects : Objects)

theorem pruned_pruned : (s.pruned objects).pruned objects = s.pruned objects := by
  rw [pruned, pruned, Registry.prune_prune_self]

/-- A search asks the registry about the living only. -/
theorem lookup_pruned : (s.pruned objects).lookup objects = s.lookup objects := by
  rw [lookup, lookup, Lookup.mk.injEq]
  refine ⟨rfl, rfl, funext fun path => ?_⟩
  exact congrArg (Option.map _) (Registry.ownerOf?_prune ..)

theorem resolve_pruned (raw : Text) :
    (s.pruned objects).resolve objects raw = s.resolve objects raw := by
  have find : (s.pruned objects).find objects = s.find objects := by
    funext key
    rw [Store.find, lookup_pruned]
    rfl
  rw [resolve, resolve, find]

theorem fetch_pruned {α : Type} (read : Text → Option α) (raw : Text) (default : α) :
    (s.pruned objects).fetch read objects raw default = s.fetch read objects raw default := by
  rw [fetch, fetchText, resolve_pruned]
  rfl

theorem summary_pruned : (s.pruned objects).summary objects = s.summary objects := by
  have living : (s.pruned objects).registry.size objects.isAlive =
      s.registry.size objects.isAlive := Registry.size_prune ..
  have nodes : (s.pruned objects).tree = s.tree := rfl
  unfold summary
  rw [living, nodes]

section Storing

theorem insertText_pruned (raw value : Text) :
    (s.pruned objects).insertText raw value =
      (s.insertText raw value).map (·.pruned objects) := by
  rw [insertText, insertText]
  cases Key.parse raw <;> rfl

theorem insertEntry_pruned (e : Entry) :
    (s.pruned objects).insertEntry e =
      ((s.insertEntry e).1.pruned objects, (s.insertEntry e).2) := by
  rw [insertEntry, insertEntry, insertText_pruned]
  cases s.insertText e.key e.value <;> rfl

theorem insertAll_pruned (entries : List Entry) :
    (s.pruned objects).insertAll entries =
      ((s.insertAll entries).1.pruned objects, (s.insertAll entries).2) := by
  rw [insertAll, insertAll]
  generalize Report.empty = report
  induction entries generalizing s report with
  | nil => rfl
  | cons e entries ih =>
    rw [List.foldl_cons, List.foldl_cons]
    simp only [insertEntry_pruned]
    exact ih ..

theorem readResources_pruned (source : Source) :
    (s.pruned objects).readResources source =
      ((s.readResources source).1.pruned objects, (s.readResources source).2) := by
  rw [readResources, readResources]
  cases (Properties.parse source).outcome with
  | error e => rfl
  | ok entries => simp only [insertAll_pruned]

theorem insertRelative_pruned (o : ObjectId) (typeName raw : Text) (value : Value) :
    (s.pruned objects).insertRelative objects o typeName raw value =
      (s.insertRelative objects o typeName raw value).map (·.pruned objects) := by
  have nameOf : (s.pruned objects).registry.nameOf? objects.isAlive o =
      s.registry.nameOf? objects.isAlive o := Registry.nameOf?_prune ..
  cases valid : Key.isValid raw with
  | false =>
    rw [insertRelative_of_not_isValid valid, insertRelative_of_not_isValid valid]
    rfl
  | true =>
    have read := Key.parse_of_isValid valid
    cases named : s.registry.nameOf? objects.isAlive o with
    | none =>
      simp only [insertRelative, read, nameOf, named]
      rfl
    | some name =>
      have named' := nameOf.trans named
      cases found : s.tree.findPath? name with
      | some start =>
        rw [insertRelative_of_findPath? read named found,
          insertRelative_of_findPath? read named' found]
        rfl
      | none =>
        rw [insertRelative_of_findPath?_eq_none read named found,
          insertRelative_of_findPath?_eq_none read named' found]
        cases (Key.parse name).bind (·.join raw) <;> rfl

end Storing

section Registering

variable (name : Text) (o : ObjectId) (typeName : Text)

theorem register_pruned :
    (s.pruned objects).register objects name o typeName =
      s.register objects name o typeName := by
  rw [register, register]
  simp only [pruned, Registry.register_prune]

theorem registerChild_pruned (parent : ObjectId) :
    (s.pruned objects).registerChild objects name o typeName parent =
      s.registerChild objects name o typeName parent := by
  rw [registerChild, registerChild]
  simp only [pruned, Registry.registerChild_prune]

/-- A relative lookup finds the same, and it leaves the same registrations of living objects. -/
theorem resolveRelative_pruned (raw : Text) :
    ((s.pruned objects).resolveRelative objects o typeName raw).2 =
        (s.resolveRelative objects o typeName raw).2 ∧
      ((s.pruned objects).resolveRelative objects o typeName raw).1.pruned objects =
        (s.resolveRelative objects o typeName raw).1.pruned objects := by
  have nameOf : (s.pruned objects).registry.nameOf? objects.isAlive o =
      s.registry.nameOf? objects.isAlive o := Registry.nameOf?_prune ..
  rw [resolveRelative, resolveRelative, nameOf]
  cases Key.isValid raw with
  | false => exact ⟨rfl, s.pruned_pruned objects⟩
  | true =>
    cases s.registry.nameOf? objects.isAlive o with
    | some path => exact ⟨s.resolve_pruned objects _, s.pruned_pruned objects⟩
    | none => simp only [pruned, Registry.record_prune, if_true, and_self]

end Registering

end Store

namespace Loader

variable (l : Loader) (s : Store) (objects : Objects)

theorem loadFile_pruned (name : Text) :
    l.loadFile (s.pruned objects) name =
      ((l.loadFile s name).1.pruned objects, (l.loadFile s name).2) := by
  rw [loadFile, loadFile]
  cases (l.locate? name).bind l.files.file? with
  | none => rfl
  | some source => exact s.readResources_pruned objects source

theorem loadChain_pruned (report : Report) (names : List Text) :
    l.loadChain (s.pruned objects) report names =
      ((l.loadChain s report names).1.pruned objects, (l.loadChain s report names).2) := by
  induction names generalizing s report with
  | nil => rfl
  | cons name rest ih =>
    rw [loadChain, loadChain, loadFile_pruned]
    obtain ⟨loaded, outcome, warnings⟩ := l.loadFile s name
    cases outcome with
    | ok more => simp only [ih]
    | error e =>
      cases e with
      | configNotFound missing => simp only [ih]
      | _ => rfl

theorem loadFiles_pruned (initial : Text) :
    l.loadFiles (s.pruned objects) objects initial =
      ((l.loadFiles s objects initial).1.pruned objects, (l.loadFiles s objects initial).2) := by
  rw [loadFiles, loadFiles, loadFile_pruned]
  obtain ⟨loaded, outcome, warnings⟩ := l.loadFile s initial
  cases outcome with
  | error e => rfl
  | ok report =>
    have chain : l.chained (loaded.pruned objects) objects = l.chained loaded objects := by
      rw [chained, chained]
      cases l.config.chainProperty with
      | none => rfl
      | some property => simp only [Store.resolve_pruned]
    simp only [chain]
    cases l.chained loaded objects with
    | error e => rfl
    | ok names => simp only [loadChain_pruned]

end Loader

namespace Session

/-- The session without the registrations of dead objects. -/
def pruned (s : Session) : Session := { s with store := s.store.pruned s.objects }

/-- Two operations come to the same, but for registrations of dead objects. -/
structure Agree (a b : Session × Logged Reply) : Prop where
  reply : a.2 = b.2
  session : a.1.pruned = b.1.pruned

variable {s : Session}

theorem pruned_pruned (s : Session) : s.pruned.pruned = s.pruned := by
  show { s with store := (s.store.pruned s.objects).pruned s.objects } = _
  rw [Store.pruned_pruned]
  rfl

theorem agree_tell {α : Type} {a b : α} (same : a = b) (outcome : α → Except Error Reply) :
    Agree (s.pruned.tell (outcome a)) (s.tell (outcome b)) :=
  ⟨congrArg (Logged.quiet ∘ outcome) same, s.pruned_pruned⟩

/-- What is done to the pruned store comes to the same if it leads to the same living entries. -/
theorem agree_answer {a b : Store} (same : a.pruned s.objects = b.pruned s.objects)
    (reply : Logged Reply) : Agree (s.pruned.answer a reply) (s.answer b reply) :=
  ⟨rfl, congrArg (fun store => { s with store }) same⟩

theorem agree_load {α : Type} {a b : Store × α} (same : a = (b.1.pruned s.objects, b.2))
    (reply : α → Logged Reply) :
    Agree (s.pruned.answer a.1 (reply a.2)) (s.answer b.1 (reply b.2)) := by
  subst same
  exact agree_answer (b.1.pruned_pruned s.objects) _

/-- An attempt that leads to the same store, or to the pruned one. -/
theorem agree_attempt {a b : Except Error Store}
    (same : a = b ∨ a = b.map (·.pruned s.objects)) : Agree (s.pruned.attempt a) (s.attempt b) := by
  obtain rfl | rfl := same
  · cases a with
    | error e => exact agree_tell rfl id
    | ok store => exact agree_answer rfl _
  · cases b with
    | error e => exact agree_tell rfl id
    | ok store => exact agree_answer (store.pruned_pruned s.objects) _

theorem agree_withObject {o : ObjectId} {act act' : Text → Session × Logged Reply}
    (acts : ∀ typeName, s.objects.isAlive o = true → Agree (act typeName) (act' typeName)) :
    Agree (s.pruned.withObject o act) (s.withObject o act') := by
  have same : s.pruned.objects = s.objects := rfl
  rw [withObject, withObject, same]
  cases living : s.objects.typeOf? o with
  | none => exact agree_tell rfl id
  | some typeName => exact acts typeName (Objects.isAlive_of_typeOf? living)

/-- Pruning before an operation makes no difference. -/
theorem step_pruned (h : s.Sound) (op : Operation) : Agree (s.pruned.step op) (s.step op) := by
  cases op with
  | create typeName =>
    refine ⟨rfl, ?_⟩
    have same : (s.store.registry.prune s.objects.isAlive).prune
        (s.objects.create typeName).1.isAlive =
          s.store.registry.prune (s.objects.create typeName).1.isAlive := by
      rw [h.precedes.prune_create, h.precedes.prune.prune_create, Registry.prune_prune_self]
    simp only [step, pruned, Store.pruned, same]
  | setType o typeName =>
    refine ⟨rfl, ?_⟩
    simp only [step, pruned, Store.pruned, Objects.isAlive_setType, Registry.prune_prune_self]
  | drop o =>
    refine ⟨rfl, ?_⟩
    have fewer (p : ObjectId) (living : (s.objects.drop o).isAlive p = true) :
        s.objects.isAlive p = true := by
      rw [Objects.isAlive_drop, Bool.and_eq_true] at living
      exact living.2
    simp only [step, pruned, Store.pruned, Registry.prune_prune fewer]
  | describe o => exact agree_withObject fun _ _ => agree_tell rfl id
  | resolve raw => exact agree_tell (s.store.resolve_pruned ..) (·.map .value)
  | resolveRelative o raw =>
    apply agree_withObject
    intro typeName _
    obtain ⟨found, kept⟩ := s.store.resolveRelative_pruned s.objects o typeName raw
    show Agree (s.pruned.answer _ (.quiet (((s.store.pruned s.objects).resolveRelative s.objects o
      typeName raw).2.map .value))) _
    rw [found]
    exact agree_answer kept _
  | insert raw value => exact agree_attempt (.inr (s.store.insertText_pruned ..))
  | insertList raw values => exact agree_attempt (.inr (s.store.insertText_pruned ..))
  | insertRelative o raw value =>
    exact agree_withObject fun _ _ => agree_attempt (.inr (s.store.insertRelative_pruned ..))
  | insertPairs pairs =>
    exact agree_load (s.store.insertAll_pruned ..) fun report =>
      ⟨.ok (.report report), report.warnings⟩
  | readResources source => exact agree_load (s.store.readResources_pruned ..) (·.map .report)
  | loadFile name => exact agree_load (s.loader.loadFile_pruned ..) (·.map .report)
  | loadFiles name => exact agree_load (s.loader.loadFiles_pruned ..) (·.map .report)
  | register name o =>
    exact agree_withObject fun _ _ => agree_attempt (.inl (s.store.register_pruned ..))
  | registerChild name o parent =>
    apply agree_withObject
    intro typeName _
    exact agree_withObject fun _ _ => agree_attempt (.inl (s.store.registerChild_pruned ..))
  | unregister o =>
    apply agree_withObject
    intro _ living
    apply agree_answer
    simp only [Store.pruned, Store.unregister, pruned, Registry.prune_forget living,
      Registry.prune_prune_self]
  | unregisterAll => exact agree_answer rfl _
  | reset => exact agree_answer rfl _
  | lookupName o =>
    exact agree_tell (s.store.registry.nameOf?_prune ..) fun name => .ok (.name name)
  | lookupObject name =>
    exact agree_tell (s.store.registry.ownerOf?_prune ..) fun owner =>
      .ok (.object (owner.map (·.object)))
  | summary => exact agree_tell (s.store.summary_pruned ..) fun text => .ok (.text text)
  | fetchInt raw default => exact agree_tell (s.store.fetch_pruned ..) (·.map .integer)
  | fetchFloat raw default => exact agree_tell (s.store.fetch_pruned ..) (·.map .float)
  | fetchBool raw default => exact agree_tell (s.store.fetch_pruned ..) (·.map .flag)
  | _ => exact agree_tell rfl id

/-- Pruning makes no difference to any operations. -/
theorem replies_pruned (h : s.Sound) (operations : List Operation) :
    s.pruned.replies operations = s.replies operations := by
  induction operations generalizing s with
  | nil => rfl
  | cons op rest ih =>
    have sound : s.pruned.Sound := h.prune _
    obtain ⟨reply, session⟩ := step_pruned h op
    have later : (s.pruned.step op).1.replies rest = (s.step op).1.replies rest := by
      rw [← ih (sound_step sound op), session, ih (sound_step h op)]
    rw [replies, replies]
    simp only [reply, later]

/-- Sessions that prune to the same cannot be told apart. -/
theorem replies_eq_of_pruned_eq {t : Session} (hs : s.Sound) (ht : t.Sound)
    (same : s.pruned = t.pruned) (operations : List Operation) :
    s.replies operations = t.replies operations := by
  rw [← replies_pruned hs, same, replies_pruned ht]

/-- A relative lookup is over when it is answered. -/
theorem pruned_step_resolveRelative (h : s.Sound) (o : ObjectId) (raw : Text) :
    (s.step (.resolveRelative o raw)).1.pruned = s.pruned := by
  rw [step, withObject]
  cases s.objects.typeOf? o with
  | none => rfl
  | some typeName =>
    simp only [Store.resolveRelative]
    cases Key.isValid raw with
    | false => rfl
    | true =>
      cases nameless : s.store.registry.nameOf? s.objects.isAlive o with
      | some name => rfl
      | none =>
        have probed := Registry.Sound.forget_probe h nameless typeName
        simp only [answer, pruned, Store.pruned, Store.unregister, probed, if_true,
          Registry.prune_prune_self]

/-- After any run, all that comes later goes as if a relative lookup had not taken place, whatever
the object and the key. Every object keeps its name and every name its object, and no name on record
has the reserved name of the lookup in it. -/
theorem replies_after_resolveRelative (hierarchy : Hierarchy) (loader : Loader)
    (before : List Operation) (o : ObjectId) (raw : Text) :
    let s := (start hierarchy loader).run before
    let next := (s.step (.resolveRelative o raw)).1
    (∀ after, next.replies after = s.replies after) ∧
      (∀ p, next.store.registry.nameOf? next.objects.isAlive p =
        s.store.registry.nameOf? s.objects.isAlive p) ∧
      (∀ name, next.store.registry.ownerOf? next.objects.isAlive name =
        s.store.registry.ownerOf? s.objects.isAlive name) ∧
      (∀ (p : ObjectId) (name : Text), s.store.registry.names[p]? = some name →
        probeName ∉ name.splitOn '.') ∧
      ∀ (name : Text) (owner : Owner), s.store.registry.owners[name]? = some owner →
        probeName ∉ name.splitOn '.' := by
  intro s next
  have sound : s.Sound := sound_run (sound_start hierarchy loader) before
  have same : next.pruned = s.pruned := pruned_step_resolveRelative sound o raw
  have entries := Registry.prune_eq_iff.1 (congrArg (·.store.registry) same)
  refine ⟨?_, entries.1, entries.2, ?_, ?_⟩
  · exact replies_eq_of_pruned_eq (sound_step sound _) sound same
  · exact fun p name named => not_mem_splitOn_of_isValidPath (sound.names p name named)
  · exact fun name owner owned => not_mem_splitOn_of_isValidPath (sound.owners name owner owned)

/-- A lookup relative to a nameless object changes the registry: the entry of a dead object goes. -/
theorem replies_after_resolveRelative_of_nameless :
    let s := (start TypeTable.empty ⟨.standard, ⟨∅, []⟩⟩).run
      [.create "Frame".toList, .register "old".toList 0, .create "Panel".toList,
        .create "Label".toList, .register "app.x".toList 2, .drop 0]
    let next := (s.step (.resolveRelative 1 "title".toList)).1
    s.store.registry.names.toList = [(0, "old".toList), (2, "app.x".toList)] ∧
      next.store.registry.names.toList = [(2, "app.x".toList)] ∧
      (∀ after, next.replies after = s.replies after) ∧
      s.store.registry.names[2]? = some "app.x".toList ∧
      s.store.registry.owners["app.x".toList]? = some ⟨2, "Label".toList⟩ ∧
      probeName ∉ "app.x".toList.splitOn '.' := by
  intro s next
  have named : s.store.registry.names[2]? = some "app.x".toList := by decide +kernel
  have owned : s.store.registry.owners["app.x".toList]? = some ⟨2, "Label".toList⟩ := by
    decide +kernel
  obtain ⟨same, -, -, names, -⟩ := replies_after_resolveRelative TypeTable.empty
    ⟨.standard, ⟨∅, []⟩⟩ [.create "Frame".toList, .register "old".toList 0,
      .create "Panel".toList, .create "Label".toList, .register "app.x".toList 2, .drop 0]
    1 "title".toList
  exact ⟨by decide +kernel, by decide +kernel, same, named, owned, names 2 _ named⟩

end Session

end ResourceLookup
