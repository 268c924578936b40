import ResourceLookup.Proofs.Store.Bulk
import ResourceLookup.Session.Basic

/-!
# How loading fails

A file is refused if it is not found or cannot be read to its end, and nothing of it is stored then.
Loading a file together with those that the store names also fails if the key of the resource that
names them is malformed, or if one of them is broken; this shows only when the first file has been
stored. `loadFiles_fails_before_or_behind_first` says exactly what is stored where loading fails.
-/

namespace ResourceLookup

namespace Error

variable {α β : Type}

/-- The error of an outcome, if there is one. -/
def ofOutcome? : Except Error α → Option Error
  | .ok _ => none
  | .error e => some e

theorem ofOutcome?_eq_some_iff {outcome : Except Error α} {e : Error} :
    ofOutcome? outcome = some e ↔ outcome = .error e := by
  cases outcome with
  | ok a => simp [ofOutcome?]
  | error e => simp [ofOutcome?]

@[simp] theorem ofOutcome?_map (f : α → β) (outcome : Except Error α) :
    ofOutcome? (outcome.map f) = ofOutcome? outcome := by
  cases outcome <;> rfl

end Error

/-- The error with which a text is refused as a key. -/
def Key.refusal (raw : Text) : Option Error :=
  if isValid raw then none else some (.malformedKey raw)

theorem Key.ofOutcome?_parse (raw : Text) : Error.ofOutcome? (parse raw) = refusal raw := by
  rw [refusal]
  cases valid : isValid raw with
  | true => rw [parse_of_isValid valid]; rfl
  | false => rw [parse_of_not_isValid valid]; rfl

theorem Store.ofOutcome?_resolve (s : Store) (objects : Objects) (raw : Text) :
    Error.ofOutcome? (s.resolve objects raw) = Key.refusal raw := by
  rw [resolve, Error.ofOutcome?_map, Key.ofOutcome?_parse]

theorem Store.ofOutcome?_readResources (s : Store) (source : Source) :
    Error.ofOutcome? (s.readResources source).2.outcome = source.failure.map .io := by
  cases failure : source.failure with
  | none => rw [s.readResources_of_sound failure]; rfl
  | some cause => rw [s.readResources_of_broken failure]; rfl

namespace Loader

variable (l : Loader)

/-- The cause for which the file that is found for a name cannot be read to its end. -/
def breakage? (name : Text) : Option Text := (l.content? name).bind (·.failure)

/-- The error with which a file is refused: it is not found, or it is broken. -/
def refusal (name : Text) : Option Error :=
  if l.locate? name = none then some (.configNotFound name) else (l.breakage? name).map .io

/-- The error with which a file and those that the store names are refused once the first one has
been `loaded`. -/
def filesRefusal (loaded : Store) (objects : Objects) (initial : Text) : Option Error :=
  (l.refusal initial).or <| (l.config.chainProperty.bind Key.refusal).or <|
    (((l.chained loaded objects).toOption.getD []).findSome? l.breakage?).map .io

/-- What is found has a content. -/
theorem content?_eq_none_iff {name : Text} : l.content? name = none ↔ l.locate? name = none := by
  rw [content?]
  constructor
  · intro absent
    cases found : l.locate? name with
    | none => rfl
    | some path =>
      rw [found, Option.bind_some] at absent
      have there := List.find?_some found
      rw [absent] at there
      cases there
  · intro lost
    rw [lost]
    rfl

theorem loadFile_of_absent {name : Text} (absent : l.content? name = none) (s : Store) :
    l.loadFile s name = (s, .quiet (.error (.configNotFound name))) := by
  rw [content?] at absent
  rw [loadFile, absent]

theorem loadFile_of_content {name : Text} {source : Source}
    (content : l.content? name = some source) (s : Store) :
    l.loadFile s name = s.readResources source := by
  rw [content?] at content
  rw [loadFile, content]

theorem ofOutcome?_loadFile (s : Store) (name : Text) :
    Error.ofOutcome? (l.loadFile s name).2.outcome = l.refusal name := by
  rw [refusal]
  cases content : l.content? name with
  | none =>
    rw [l.loadFile_of_absent content, if_pos (l.content?_eq_none_iff.1 content)]
    rfl
  | some source =>
    have found : l.locate? name ≠ none := by
      rw [Ne, ← l.content?_eq_none_iff, content]
      simp
    rw [l.loadFile_of_content content, if_neg found, breakage?, content,
      Store.ofOutcome?_readResources]
    rfl

/-- A file that is refused leaves nothing. -/
theorem loadFile_of_refusal {name : Text} {e : Error} (refused : l.refusal name = some e)
    (s : Store) : (l.loadFile s name).1 = s := by
  obtain ⟨report, warnings, -, read⟩ | ⟨cause, warnings, -, read⟩ | ⟨-, -, read⟩ :=
    l.loadFile_cases s name
  · rw [← l.ofOutcome?_loadFile s, read] at refused
    cases refused
  · rw [read]
  · rw [read]

theorem ofOutcome?_chained (s : Store) (objects : Objects) :
    Error.ofOutcome? (l.chained s objects) = l.config.chainProperty.bind Key.refusal := by
  rw [chained]
  cases l.config.chainProperty with
  | none => rfl
  | some property => exact (Error.ofOutcome?_map ..).trans (s.ofOutcome?_resolve objects property)

/-- The first broken file ends the loading of further ones; those that are not found do not. -/
theorem ofOutcome?_loadChain (s : Store) (report : Report) (names : List Text) :
    Error.ofOutcome? (l.loadChain s report names).2.outcome =
      (names.findSome? l.breakage?).map .io := by
  induction names generalizing s report with
  | nil => rfl
  | cons name rest ih =>
    rw [loadChain, List.findSome?_cons, breakage?]
    cases content : l.content? name with
    | none =>
      rw [l.loadFile_of_absent content]
      exact ih ..
    | some source =>
      rw [l.loadFile_of_content content, Option.bind_some]
      cases failure : source.failure with
      | none =>
        rw [s.readResources_of_sound failure]
        exact ih ..
      | some cause =>
        rw [s.readResources_of_broken failure]
        rfl

theorem ofOutcome?_loadFiles (s : Store) (objects : Objects) (initial : Text) :
    Error.ofOutcome? (l.loadFiles s objects initial).2.outcome =
      l.filesRefusal (l.loadFile s initial).1 objects initial := by
  rw [filesRefusal, ← l.ofOutcome?_loadFile s, loadFiles]
  rcases l.loadFile s initial with ⟨loaded, outcome | report, warnings⟩
  · rfl
  · rw [← l.ofOutcome?_chained loaded objects]
    cases chain : l.chained loaded objects with
    | error e => simp [chain, Error.ofOutcome?]
    | ok names =>
      simp only [chain]
      exact l.ofOutcome?_loadChain loaded report names

/-- Where the first file is refused no other one is looked for. -/
theorem loadFiles_of_refusal {initial : Text} {e : Error} (refused : l.refusal initial = some e)
    (s : Store) (objects : Objects) : (l.loadFiles s objects initial).1 = s := by
  have kept := l.loadFile_of_refusal refused s
  rw [← l.ofOutcome?_loadFile s] at refused
  rw [loadFiles]
  rcases read : l.loadFile s initial with ⟨loaded, outcome | report, warnings⟩
  · rw [read] at kept
    exact kept
  · rw [read] at refused
    cases refused

/-- What is stored once the first file has been: the entries of the further files, as far as they
are named and up to a broken one. -/
theorem loadFiles_of_loaded {initial : Text} (s : Store) (objects : Objects)
    (accepted : l.refusal initial = none) :
    let loaded := (l.loadFile s initial).1
    (l.loadFiles s objects initial).1 =
      (loaded.insertAll (l.chainEntries ((l.chained loaded objects).toOption.getD []))).1 := by
  rw [← l.ofOutcome?_loadFile s] at accepted
  rw [loadFiles]
  rcases read : l.loadFile s initial with ⟨loaded, outcome | report, warnings⟩
  · rw [read] at accepted
    cases accepted
  · cases chain : l.chained loaded objects with
    | error e =>
      simp only [chain]
      rfl
    | ok names =>
      simp only [chain]
      exact l.loadChain_eq loaded report names

/-- The files before the first broken one are stored. -/
theorem chainEntries_of_broken {before after : List Text} {name cause : Text}
    (sound : ∀ earlier ∈ before, l.breakage? earlier = none)
    (broken : l.breakage? name = some cause) :
    l.chainEntries (before ++ name :: after) = before.flatMap l.entries := by
  have isBroken_eq (name : Text) : l.isBroken name = (l.breakage? name).isSome := by
    rw [isBroken, breakage?]
    cases l.content? name <;> rfl
  induction before with
  | nil =>
    apply l.chainEntries_cons_of_isBroken
    rw [isBroken_eq, broken]
    rfl
  | cons earlier before ih =>
    obtain ⟨first, rest⟩ := List.forall_mem_cons.1 sound
    have whole : l.isBroken earlier = false := by
      rw [isBroken_eq, first]
      rfl
    rw [List.cons_append, l.chainEntries_cons whole, ih rest, List.flatMap_cons]

/-- Where loading files fails either the first file is refused, and nothing is stored; or the first
file is stored, and then the key of the resource that names further ones is malformed, or one of
these is broken and those before it are stored too. -/
theorem loadFiles_fails_before_or_behind_first (s : Store) (objects : Objects) (initial : Text)
    {e : Error} (failed : (l.loadFiles s objects initial).2.outcome = .error e) :
    let loaded := (l.loadFile s initial).1
    let next := (l.loadFiles s objects initial).1
    l.refusal initial = some e ∧ next = s ∨
    l.refusal initial = none ∧
      ((∃ property, l.config.chainProperty = some property ∧ Key.isValid property = false ∧
          e = .malformedKey property ∧ next = loaded) ∨
        ∃ before name after cause, l.chained loaded objects = .ok (before ++ name :: after) ∧
          (∀ earlier ∈ before, l.breakage? earlier = none) ∧ l.breakage? name = some cause ∧
          e = .io cause ∧ next = (loaded.insertAll (before.flatMap l.entries)).1) := by
  intro loaded next
  have refused := l.ofOutcome?_loadFiles s objects initial
  rw [Error.ofOutcome?_eq_some_iff.2 failed, filesRefusal, eq_comm, Option.or_eq_some_iff,
    Option.or_eq_some_iff] at refused
  obtain first | ⟨accepted, later⟩ := refused
  · exact .inl ⟨first, l.loadFiles_of_refusal first s objects⟩
  · refine .inr ⟨accepted, ?_⟩
    have stored : next = _ := l.loadFiles_of_loaded s objects accepted
    have chain := l.ofOutcome?_chained loaded objects
    obtain malformed | ⟨wellFormed, broken⟩ := later
    · rw [malformed, Error.ofOutcome?_eq_some_iff] at chain
      obtain ⟨property, configured, refused⟩ := Option.bind_eq_some_iff.1 malformed
      refine .inl ⟨property, configured, ?_⟩
      rw [Key.refusal] at refused
      split at refused
      · cases refused
      · rename_i invalid
        refine ⟨by simpa using invalid, (Option.some.inj refused).symm, ?_⟩
        rw [stored, chain]
        rfl
    · rw [wellFormed] at chain
      obtain ⟨names, named⟩ : ∃ names, l.chained loaded objects = .ok names := by
        cases outcome : l.chained loaded objects with
        | error e =>
          rw [outcome] at chain
          cases chain
        | ok names => exact ⟨names, rfl⟩
      obtain ⟨cause, first, rfl⟩ := Option.map_eq_some_iff.1 broken
      rw [named] at first stored
      obtain ⟨before, name, after, rfl, breaks, sound⟩ := List.findSome?_eq_some_iff.1 first
      refine .inr ⟨before, name, after, cause, named, sound, breaks, rfl, ?_⟩
      rw [stored, ← l.chainEntries_of_broken sound breaks]
      rfl

/-- Of four files that the first one names, one is not there and the third cannot be read to its
end. -/
theorem loadFiles_fails_behind_first_at_broken :
    let files := ((((FileTree.withWorkingDirectory ['/']).addFile "main".toList
      (.ofText "more=a|gone|bad|b\nk=0".toList)).addFile ['a'] (.ofText "k=1".toList)).addFile
      "bad".toList ⟨Text.utf8 "k=2\n".toList, some "boom".toList⟩).addFile ['b']
      (.ofText "k=3".toList)
    let l : Loader := ⟨⟨[['.']], some "more".toList, true⟩, files⟩
    let s : Store := .new TypeTable.empty
    (l.loadFiles s .empty "main".toList).2.outcome = .error (.io "boom".toList) ∧
      (l.loadFiles s .empty "main".toList).1.dump none = "k: 1\nmore: a|gone|bad|b\n".toList ∧
      ∃ before name after cause,
        l.chained (l.loadFile s "main".toList).1 .empty = .ok (before ++ name :: after) ∧
          (∀ earlier ∈ before, l.breakage? earlier = none) ∧ l.breakage? name = some cause ∧
          Error.io "boom".toList = .io cause ∧
          (l.loadFiles s .empty "main".toList).1 =
            ((l.loadFile s "main".toList).1.insertAll (before.flatMap l.entries)).1 := by
  intro files l s
  have failed : (l.loadFiles s .empty "main".toList).2.outcome = .error (.io "boom".toList) :=
    Error.ofOutcome?_eq_some_iff.1 (by decide +kernel)
  have accepted : l.refusal "main".toList = none := by decide +kernel
  refine ⟨failed, by decide +kernel, ?_⟩
  obtain ⟨refused, -⟩ | ⟨-, ⟨property, -, -, other, -⟩ | broken⟩ :=
    l.loadFiles_fails_before_or_behind_first s .empty "main".toList failed
  · rw [accepted] at refused
    cases refused
  · cases other
  · exact broken

/-- A malformed key of the resource that names further files is refused when the first file has been
stored. -/
theorem stored_before_malformed_key :
    ¬ ∀ (hierarchy : Hierarchy) (loader : Loader) (before : List Operation) (initial : Text)
        (e : Error),
      let s := (Session.start hierarchy loader).run before
      (s.step (.loadFiles initial)).2.outcome = .error e →
        (s.step (.loadFiles initial)).1.store.tree = s.store.tree := by
  intro atomic
  let files := (FileTree.withWorkingDirectory ['/']).addFile "main".toList
    (.ofText "title=Main".toList)
  let loader : Loader := ⟨⟨[['.']], some "a..b".toList, false⟩, files⟩
  have same := atomic TypeTable.empty loader [] "main".toList (.malformedKey "a..b".toList)
    (Error.ofOutcome?_eq_some_iff.1 (by decide +kernel))
  exact absurd (congrArg Tree.size same) (by decide +kernel)

end Loader

end ResourceLookup
