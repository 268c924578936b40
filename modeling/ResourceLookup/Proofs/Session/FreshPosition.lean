import ResourceLookup.Proofs.Lookup.Renaming
import ResourceLookup.Proofs.Session.Registrations

/-!
# Fresh positions

A position is fresh in a store if no node has its name and nobody lives there or below. All fresh
positions are alike: an object that is registered at one of them resolves keys as it would at any
other one. The reserved name is a fresh position whenever no node has it, for nothing can be
registered there. So an object without a name resolves keys as it would under any name that is not
in use.
-/

namespace ResourceLookup

/-- The reserved name could stand in a key, if it were allowed to be written. -/
theorem isSegment_probeName : IsSegment probeName where
  nonempty := by decide
  plain c hc := by
    have plain : probeName.all (fun c => !isDelimiter c && !Text.isBlank c) = true := by
      decide +kernel
    simpa using List.all_eq_true.1 plain c hc
  single := by decide +kernel

namespace Key

/-- A relative key that starts tightly goes on behind a segment as it is. -/
theorem exists_parse_below {name raw : Text} {relative : Key} (segment : IsSegment name)
    (read : parse raw = .ok relative) (tight : raw.head? ≠ some '*') :
    ∃ key, parse (Store.below name raw) = .ok key ∧ key.segments = name :: relative.segments := by
  have proper : ∀ s ∈ [(⟨.tight, name⟩ : Step)], IsSegment s.segment := by simpa using segment
  let head : Key := .ofSteps [⟨.tight, name⟩] (by simp) proper
  have text : head.text = name := by simp [head, Step.pathText]
  obtain ⟨joined, join, steps⟩ := head.steps_join read
  have notLoose : relative.text.head? ≠ some '*' := by rwa [head?_text_of_parse read]
  have written : joined.text = name ++ '.' :: relative.text := by
    rw [← joined.pathText_steps, steps, Step.pathText_append head.steps_ne_nil, head.pathText_steps,
      ← attach_tight_text, attach_tight, if_neg notLoose, text]
  refine ⟨joined, text ▸ join, ?_⟩
  show joined.text.splitOn '.' = _
  rw [written, List.splitOn_append_cons_self, segment.splitOn_eq]
  rfl

end Key

namespace Registry

variable {r : Registry} {alive : ObjectId → Bool} {o : ObjectId} {name typeName : Text}

/-- Nobody lives under a name or below it. -/
def Free (r : Registry) (alive : ObjectId → Bool) (name : Text) : Prop :=
  ∀ path, path = name ∨ name ++ ['.'] <+: path → r.objectAt? alive path = none

instance (r : Registry) (alive : ObjectId → Bool) (name : Text) : Decidable (r.Free alive name) :=
  decidable_of_iff (∀ path ∈ r.owners.keys, path = name ∨ name ++ ['.'] <+: path →
      r.objectAt? alive path = none) <| by
    refine ⟨fun listed path starts => ?_, fun free path _ => free path⟩
    by_cases known : path ∈ r.owners
    · exact listed path (Std.ExtTreeMap.mem_keys.2 known) starts
    · simp [objectAt?, ownerOf?, Std.ExtTreeMap.getElem?_eq_none known]

theorem typeAt?_record (living : alive o = true) (free : r.objectAt? alive name = none)
    (other : Text) :
    (r.record alive name o typeName).typeAt? alive other =
      if name = other then some typeName else r.typeAt? alive other := by
  have unowned : r.ownerOf? alive name = none := by simpa [objectAt?] using free
  have owner : (r.record alive name o typeName).ownerOf? alive other =
      if name = other then some ⟨o, typeName⟩ else r.ownerOf? alive other := by
    rw [ownerOf?_record living, unowned]
    rfl
  rw [typeAt?, owner, typeAt?]
  split <;> rfl

/-- At a free name that an object is recorded under, its type is all that there is on record. -/
theorem Free.typeAt?_record (h : r.Free alive name) (living : alive o = true)
    (rest : List Text) :
    (r.record alive name o typeName).typeAt? alive (Lookup.path (name :: rest)) =
      if rest = [] then some typeName else none := by
  rw [Registry.typeAt?_record living (h name (.inl rfl))]
  cases rest with
  | nil => simp [Lookup.path]
  | cons segment rest =>
    have path : Lookup.path (name :: segment :: rest) =
        name ++ '.' :: Lookup.path (segment :: rest) := by
      simp [Lookup.path, List.intercalate, Binding.delimiter]
    have longer : name ≠ Lookup.path (name :: segment :: rest) := by
      rw [path]
      simp
    have nobody : r.objectAt? alive (Lookup.path (name :: segment :: rest)) = none := by
      apply h _ (.inr _)
      rw [path]
      exact ⟨Lookup.path (segment :: rest), by simp⟩
    have unowned := Option.map_eq_none_iff.1 nobody
    rw [if_neg longer, typeAt?, unowned]
    rfl

/-- The reserved name is free. -/
theorem Sound.free_probeName {next : ObjectId} (h : r.Sound next) (alive : ObjectId → Bool) :
    r.Free alive probeName := by
  intro path starts
  have part : probeName ∈ path.splitOn '.' := by
    obtain rfl | ⟨rest, rfl⟩ := starts
    · simp [isSegment_probeName.splitOn_eq]
    · rw [List.append_assoc, List.singleton_append, List.splitOn_append_cons_self,
        isSegment_probeName.splitOn_eq]
      simp
  rw [objectAt?, Option.map_eq_none_iff, Option.eq_none_iff_forall_ne_some]
  intro owner found
  rw [ownerOf?, Option.filter_eq_some_iff] at found
  exact not_mem_splitOn_of_isValidPath (h.owners path owner found.1) part

end Registry

namespace Store

variable {s : Store} {objects : Objects} {o : ObjectId} {name name' typeName raw : Text}

/-- A position that nothing in a store speaks of. -/
structure Fresh (s : Store) (objects : Objects) (name : Text) : Prop where
  segment : IsSegment name
  unused : s.tree.Unused name
  free : s.registry.Free objects.isAlive name

/-- The store after an object has been recorded at a position. -/
def recorded (s : Store) (objects : Objects) (name : Text) (o : ObjectId) (typeName : Text) :
    Store :=
  { s with registry := s.registry.record objects.isAlive name o typeName }

/-- All fresh positions are alike. -/
theorem resolve_recorded (typeName : Text) (living : objects.isAlive o = true)
    (fresh : s.Fresh objects name) (fresh' : s.Fresh objects name') (valid : Key.isValid raw = true)
    (tight : raw.head? ≠ some '*') :
    ∃ value, (s.recorded objects name o typeName).resolve objects (below name raw) = .ok value ∧
      (s.recorded objects name' o typeName).resolve objects (below name' raw) = .ok value := by
  have read := Key.parse_of_isValid valid
  obtain ⟨key, readKey, segments⟩ := Key.exists_parse_below fresh.segment read tight
  obtain ⟨key', readKey', segments'⟩ := Key.exists_parse_below fresh'.segment read tight
  let l := (s.recorded objects name o typeName).lookup objects
  let types := ((s.recorded objects name' o typeName).lookup objects).typeAt?
  have renamed : l.Renamed types key.segments key'.segments := by
    rw [segments, segments']
    constructor
    · refine .cons (.inr ⟨fresh.unused, fresh'.unused⟩) ?_
      exact List.forall₂_same.2 fun segment _ => .inl rfl
    · intro k
      rw [List.take_succ_cons, List.take_succ_cons]
      exact (fresh'.free.typeAt?_record living _).trans (fresh.free.typeAt?_record living _).symm
  have same : ((s.recorded objects name' o typeName).lookup objects).find key' = l.find key :=
    renamed.find_eq
  refine ⟨(s.recorded objects name o typeName).find objects key, ?_, ?_⟩
  · rw [resolve, readKey]
    rfl
  · rw [resolve, readKey']
    show Except.ok ((s.recorded objects name' o typeName).find objects key') = _
    rw [find, same]
    rfl

theorem resolveRelative_of_nameless (nameless : s.registry.nameOf? objects.isAlive o = none)
    (valid : Key.isValid raw = true) :
    (s.resolveRelative objects o typeName raw).2 =
      (s.recorded objects probeName o typeName).resolve objects (below probeName raw) := by
  rw [resolveRelative, if_pos valid, nameless]
  rfl

theorem resolveRelative_of_named (named : s.registry.nameOf? objects.isAlive o = some name)
    (valid : Key.isValid raw = true) :
    (s.resolveRelative objects o typeName raw).2 = s.resolve objects (below name raw) := by
  rw [resolveRelative, if_pos valid, named]

end Store

/-- A name that no node has is not the name of a child. -/
theorem Tree.Charted.unused {t : Tree} {ways : List (List Step)} (h : t.Charted ways) {name : Text}
    (byName : Category.ofSegment name = .byName)
    (unnamed : ∀ i < t.size, i ≠ root → (t.node i).name ≠ name) : t.Unused name where
  byName := byName
  get?_eq i b := by
    obtain inside | beyond := Nat.lt_or_ge i t.size
    · obtain ⟨way, hi⟩ := h.exists_way inside
      rw [Option.eq_none_iff_forall_ne_some]
      intro child found
      have hc := ((h.get?_eq_some_iff hi (by simp)).1 found).2
      refine unnamed child (h.lt_size hc) ?_ (h.name_eq hc)
      rintro rfl
      exact absurd (hc.symm.trans h.root_way) (by simp)
    · have bare : ((t.node i).children b).isEmpty = true := by
        rw [node_of_size_le beyond]
        cases b <;> rfl
      exact ChildSet.get?_of_isEmpty bare .byName name

namespace Session

variable {s : Session} {o : ObjectId} {name typeName raw : Text}

theorem reply_resolveRelative {value : Option Value} (typed : s.objects.typeOf? o = some typeName)
    (outcome : (s.store.resolveRelative s.objects o typeName raw).2 = .ok value) :
    (s.step (.resolveRelative o raw)).2 = .quiet (.ok (.value value)) := by
  rw [step, withObject, typed]
  show Logged.quiet (Except.map _ (s.store.resolveRelative s.objects o typeName raw).2) = _
  rw [outcome]
  rfl

theorem step_register (typed : s.objects.typeOf? o = some typeName)
    (path : isValidPath name = true) :
    s.step (.register name o) =
      ({ s with store := s.store.recorded s.objects name o typeName }, .quiet (.ok .done)) := by
  rw [step, withObject, typed]
  show s.attempt (s.store.register s.objects name o typeName) = _
  rw [Store.register, Registry.register, if_pos path]
  rfl

/-- After any run an object without a name resolves a key as it does once it has been registered
under a name that is not in use, provided that no node has the reserved name. The key must not start
loosely, for then its first delimiter would swallow the one behind the name. -/
theorem resolveRelative_eq_of_fresh (hierarchy : Hierarchy) (loader : Loader)
    (operations : List Operation) {o : ObjectId} {name raw : Text} :
    let s := (start hierarchy loader).run operations
    s.objects.isAlive o = true → s.store.registry.nameOf? s.objects.isAlive o = none →
      Key.isValid raw = true → raw.head? ≠ some '*' → isValidName name = true →
      (∀ i < s.store.tree.size, i ≠ Tree.root →
        (s.store.tree.node i).name ≠ probeName ∧ (s.store.tree.node i).name ≠ name) →
      s.store.registry.Free s.objects.isAlive name →
      (s.step (.register name o)).2 = .quiet (.ok .done) ∧ ∃ value,
        (s.step (.resolveRelative o raw)).2 = .quiet (.ok (.value value)) ∧
          ((s.step (.register name o)).1.step (.resolveRelative o raw)).2 =
            .quiet (.ok (.value value)) := by
  intro s living nameless valid tight proper unnamed free
  obtain ⟨typeName, typed⟩ := Option.isSome_iff_exists.1 living
  obtain ⟨ways, represents⟩ := (grown_run hierarchy loader operations).represents
  have chart : s.store.tree.Charted ways := represents.toCharted
  have sound : s.Sound := sound_run (sound_start hierarchy loader) operations
  have probe : s.store.Fresh s.objects probeName := {
    segment := isSegment_probeName
    unused := chart.unused (by decide +kernel) fun i inside below => (unnamed i inside below).1
    free := sound.free_probeName _ }
  have fresh : s.store.Fresh s.objects name := {
    segment := isSegment_of_isValidName proper
    unused := chart.unused (Category.ofSegment_of_isValidName proper) fun i inside below =>
      (unnamed i inside below).2
    free := free }
  obtain ⟨value, unregistered, registered⟩ :=
    Store.resolve_recorded typeName living probe fresh valid tight
  rw [step_register typed (isValidPath_of_isValidName proper)]
  refine ⟨rfl, value, ?_, ?_⟩
  · apply reply_resolveRelative typed
    rw [Store.resolveRelative_of_nameless nameless valid]
    exact unregistered
  · let next : Session := { s with store := s.store.recorded s.objects name o typeName }
    have named : next.store.registry.nameOf? next.objects.isAlive o = some name := by
      rw [Registry.nameOf?, if_pos living]
      exact (Registry.getElem?_record_names ..).trans (if_pos rfl)
    have outcome : (next.store.resolveRelative next.objects o typeName raw).2 = .ok value :=
      (Store.resolveRelative_of_named named valid).trans registered
    exact reply_resolveRelative (s := next) typed outcome

/-- A pattern that starts at the type of the object, beside one that starts at any position. -/
theorem resolveRelative_eq_of_fresh_panel :
    let operations : List Operation :=
      [.insert "?*title".toList (.single ['0']), .insert "Panel*title".toList (.single ['1']),
        .create "Panel".toList, .create "Frame".toList, .register "app.side".toList 1]
    let s := (start TypeTable.empty ⟨.standard, ⟨∅, []⟩⟩).run operations
    let lookup : Operation := .resolveRelative 0 "a.title".toList
    (s.step lookup).2 = .quiet (.ok (.value (some (.single ['1'])))) ∧
      ((s.step (.register "side".toList 0)).1.step lookup).2 =
        .quiet (.ok (.value (some (.single ['1'])))) := by
  intro operations s lookup
  obtain ⟨-, value, unregistered, registered⟩ :=
    resolveRelative_eq_of_fresh TypeTable.empty ⟨.standard, ⟨∅, []⟩⟩ operations
      (show s.objects.isAlive 0 = true by decide +kernel) (by decide +kernel)
      (show Key.isValid "a.title".toList = true by decide +kernel) (by decide +kernel)
      (show isValidName "side".toList = true by decide +kernel) (by decide +kernel)
      (by decide +kernel)
  have typed : s.objects.typeOf? 0 = some "Panel".toList := by decide +kernel
  have outcome : (s.store.resolveRelative s.objects 0 "Panel".toList "a.title".toList).2 =
      .ok (some (.single ['1'])) := by decide +kernel
  have reply := reply_resolveRelative typed outcome
  obtain rfl : some (.single ['1']) = value := by
    simpa [Logged.quiet] using reply.symm.trans unregistered
  exact ⟨unregistered, registered⟩

end Session

end ResourceLookup
