import ResourceLookup.Loader.Basic

/-!
# Entries stored in bulk

However many entries are stored at once, and from however many files they come, they are stored one
after the other. The entries that files contribute are told without a look at what is stored.
-/

namespace ResourceLookup

/-- The entries of a source that can be read to its end. -/
def Source.entries (source : Source) : List Entry :=
  match (Properties.parse source).outcome with
  | .ok entries => entries
  | .error _ => []

namespace Loader

/-- The content of the file that is found for a name. -/
def content? (l : Loader) (name : Text) : Option Source := (l.locate? name).bind l.files.file?

/-- The entries of a file. -/
def entries (l : Loader) (name : Text) : List Entry := (l.content? name).elim [] Source.entries

/-- A file that cannot be read to its end. -/
def isBroken (l : Loader) (name : Text) : Bool :=
  (l.content? name).any fun source => source.failure.isSome

/-- The entries of files that are read one after the other, up to a broken one. -/
def chainEntries (l : Loader) (names : List Text) : List Entry :=
  (names.takeWhile fun name => !l.isBroken name).flatMap l.entries

/-- The entries of a file and of those that the store names once the file has been read. -/
def allEntries (l : Loader) (s : Store) (objects : Objects) (initial : Text) : List Entry :=
  match l.loadFile s initial with
  | (_, ⟨.error _, _⟩) => []
  | (loaded, ⟨.ok _, _⟩) =>
    l.entries initial ++ l.chainEntries ((l.chained loaded objects).toOption.getD [])

end Loader

namespace Store

/-- The report does not decide what is stored. -/
theorem insertAll_eq (s : Store) (entries : List Entry) :
    (s.insertAll entries).1 = entries.foldl (fun s e => (s.insertEntry e).1) s := by
  rw [insertAll]
  generalize Report.empty = report
  induction entries generalizing s report with
  | nil => rfl
  | cons e entries ih =>
    rw [List.foldl_cons, List.foldl_cons]
    exact ih _ _

theorem insertEntry_report (s : Store) (e : Entry) :
    (s.insertEntry e).2 = if Key.isValid e.key then ⟨1, []⟩ else ⟨0, [e.key]⟩ := by
  rw [insertEntry, insertText]
  cases valid : Key.isValid e.key with
  | true =>
    rw [Key.parse_of_isValid valid]
    rfl
  | false =>
    rw [Key.parse_of_not_isValid valid]
    rfl

/-- What is stored already does not decide the report: the well-formed keys are stored, and the
others are passed over. -/
theorem insertAll_report (s : Store) (entries : List Entry) :
    (s.insertAll entries).2 = ⟨(entries.filter fun e => Key.isValid e.key).length,
      (entries.filter fun e => !Key.isValid e.key).map (·.key)⟩ := by
  apply Eq.trans _ (Report.empty_merge _)
  rw [insertAll]
  generalize Report.empty = report
  induction entries generalizing s report with
  | nil => exact (Report.merge_empty report).symm
  | cons e entries ih =>
    rw [List.foldl_cons]
    apply (ih (s.insertEntry e).1 (report.merge (s.insertEntry e).2)).trans
    rw [Report.merge_assoc, insertEntry_report]
    congr 1
    cases valid : Key.isValid e.key with
    | true => simp [Report.merge, valid, Nat.add_comm]
    | false => simp [Report.merge, valid]

theorem insertAll_report_of_isValid (s : Store) {entries : List Entry}
    (valid : ∀ e ∈ entries, Key.isValid e.key = true) :
    (s.insertAll entries).2 = ⟨entries.length, []⟩ := by
  have nothing : (entries.filter fun e => !Key.isValid e.key) = [] := by
    rw [List.filter_eq_nil_iff]
    intro e he
    simp [valid e he]
  rw [insertAll_report, List.filter_eq_self.2 valid, nothing]
  rfl

theorem insertAll_append (s : Store) (entries more : List Entry) :
    (s.insertAll (entries ++ more)).1 = ((s.insertAll entries).1.insertAll more).1 := by
  rw [insertAll_eq, insertAll_eq, insertAll_eq, List.foldl_append]

theorem insertEntry_eq (s : Store) (e : Entry) :
    (s.insertEntry e).1 = (s.insertText e.key e.value).toOption.getD s := by
  rw [insertEntry]
  cases s.insertText e.key e.value <;> rfl

/-- Reading resources stores the entries of the source. -/
theorem readResources_eq (s : Store) (source : Source) :
    (s.readResources source).1 = (s.insertAll source.entries).1 := by
  simp only [readResources, Source.entries]
  cases (Properties.parse source).outcome <;> rfl

theorem readResources_of_sound (s : Store) {source : Source} (h : source.failure = none) :
    s.readResources source = ((s.insertAll source.entries).1,
      ⟨.ok (s.insertAll source.entries).2,
        (Properties.parse source).warnings ++ (s.insertAll source.entries).2.warnings⟩) := by
  simp [readResources, Source.entries, Properties.parse, h]

/-- Reading a source that gives no warnings. -/
theorem readResources_of_parse (s : Store) {source : Source} {entries : List Entry}
    (read : Properties.parse source = ⟨.ok entries, []⟩) :
    s.readResources source = ((s.insertAll entries).1,
      ⟨.ok (s.insertAll entries).2, (s.insertAll entries).2.warnings⟩) := by
  rw [readResources, read]
  rfl

theorem readResources_of_broken (s : Store) {source : Source} {cause : Text}
    (h : source.failure = some cause) :
    s.readResources source = (s, ⟨.error (.io cause), (Properties.parse source).warnings⟩) := by
  simp [readResources, Properties.parse, h]

end Store

namespace Loader

variable (l : Loader)

theorem loadFile_eq (s : Store) (name : Text) :
    (l.loadFile s name).1 = (s.insertAll (l.entries name)).1 := by
  rw [loadFile, entries, content?]
  cases (l.locate? name).bind l.files.file? with
  | none => rfl
  | some source => exact s.readResources_eq source

/-- A file is found and read to its end, it is found broken, or it is not found. -/
theorem loadFile_cases (s : Store) (name : Text) :
    (∃ report warnings, l.isBroken name = false ∧
      l.loadFile s name = ((s.insertAll (l.entries name)).1, ⟨.ok report, warnings⟩)) ∨
    (∃ cause warnings, l.isBroken name = true ∧
      l.loadFile s name = (s, ⟨.error (.io cause), warnings⟩)) ∨
    l.isBroken name = false ∧ l.entries name = [] ∧
      l.loadFile s name = (s, ⟨.error (.configNotFound name), []⟩) := by
  rw [loadFile, isBroken, entries, content?]
  cases (l.locate? name).bind l.files.file? with
  | none => exact .inr (.inr ⟨rfl, rfl, rfl⟩)
  | some source =>
    cases broken : source.failure with
    | none => exact .inl ⟨_, _, by simp [broken], s.readResources_of_sound broken⟩
    | some cause => exact .inr (.inl ⟨_, _, by simp [broken], s.readResources_of_broken broken⟩)

theorem chainEntries_cons_of_isBroken {name : Text} (h : l.isBroken name = true)
    (rest : List Text) : l.chainEntries (name :: rest) = [] := by
  simp [chainEntries, h]

theorem chainEntries_cons {name : Text} (h : l.isBroken name = false) (rest : List Text) :
    l.chainEntries (name :: rest) = l.entries name ++ l.chainEntries rest := by
  simp [chainEntries, h]

theorem loadChain_eq (s : Store) (report : Report) (names : List Text) :
    (l.loadChain s report names).1 = (s.insertAll (l.chainEntries names)).1 := by
  induction names generalizing s report with
  | nil => rfl
  | cons name rest ih =>
    rw [loadChain]
    obtain ⟨loaded, warnings, sound, read⟩ | ⟨cause, warnings, broken, read⟩ |
      ⟨sound, nothing, read⟩ := l.loadFile_cases s name
    · rw [read, l.chainEntries_cons sound, Store.insertAll_append, ← ih _ (report.merge loaded)]
    · rw [read, l.chainEntries_cons_of_isBroken broken]
      rfl
    · rw [read, l.chainEntries_cons sound, nothing, List.nil_append, ← ih s report]

theorem loadFiles_eq (s : Store) (objects : Objects) (initial : Text) :
    (l.loadFiles s objects initial).1 = (s.insertAll (l.allEntries s objects initial)).1 := by
  rw [loadFiles, allEntries]
  obtain ⟨loaded, warnings, -, read⟩ | ⟨cause, warnings, -, read⟩ | ⟨-, -, read⟩ :=
    l.loadFile_cases s initial
  · rw [read]
    cases chain : l.chained (s.insertAll (l.entries initial)).1 objects with
    | error e =>
      simp [chain, chainEntries, Except.toOption]
    | ok names =>
      simp [chain, loadChain_eq, Store.insertAll_append, Except.toOption]
  · rw [read]
    rfl
  · rw [read]
    rfl

end Loader

end ResourceLookup
