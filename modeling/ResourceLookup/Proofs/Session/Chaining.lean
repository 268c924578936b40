import ResourceLookup.Proofs.Store.Loading

/-!
# Further files

Loading a file together with those that a resource names is the same as reading the file and then,
one after the other, those of the named files that are found. The names are the ones that the
resource has when the first file has been read: what later files say about it comes too late.
`loadFiles_reads_one_by_one` says this for files that can be read to their end; where loading fails
over a file that cannot, see `Loader.loadFiles_fails_before_or_behind_first`.
-/

namespace ResourceLookup

namespace Report

/-- The reports of loads one after the other, as one: the sum of what they count, and the keys that
they list. -/
def total (reports : List Report) : Report :=
  ⟨reports.foldr (fun r count => r.inserted + count) 0, reports.flatMap (·.skipped)⟩

@[simp] theorem total_nil : total [] = empty := rfl

@[simp] theorem total_cons (r : Report) (rest : List Report) :
    total (r :: rest) = r.merge (total rest) := by
  simp [total, merge]

end Report

namespace Source

/-- The report of storing the entries of a source. The store does not decide it. -/
def report (source : Source) : Report :=
  ⟨(source.entries.filter fun e => Key.isValid e.key).length,
    (source.entries.filter fun e => !Key.isValid e.key).map (·.key)⟩

/-- The warnings about a source whose entries are stored. -/
def warnings (source : Source) : List Warning :=
  (Properties.parse source).warnings ++ source.report.warnings

end Source

theorem Store.result_readResources (s : Store) {source : Source}
    (readable : source.failure = none) :
    (s.readResources source).2 = ⟨.ok source.report, source.warnings⟩ := by
  rw [s.readResources_of_sound readable, s.insertAll_report]
  rfl

/-- Whether an entry can be read to its end, if it is a file. -/
def FileEntry.isReadable : FileEntry → Bool
  | .directory => true
  | .file content => content.failure.isNone

namespace FileTree

/-- Every file can be read to its end. -/
def Readable (tree : FileTree) : Prop :=
  ∀ path source, tree.file? path = some source → source.failure = none

theorem readable_of_all_entries {tree : FileTree}
    (h : tree.entries.toList.all (·.2.isReadable) = true) : tree.Readable := by
  intro path source found
  obtain ⟨place, -, stands⟩ := Option.bind_eq_some_iff.1 found
  rw [entryAt?] at stands
  split at stands
  · rename_i content entry
    obtain rfl : content = source := Option.some.inj stands
    split at entry
    · cases entry
    · have listed := Std.ExtTreeMap.mem_toList_iff_getElem?_eq_some.2 entry
      simpa [FileEntry.isReadable] using List.all_eq_true.1 h _ listed
  · cases stands

end FileTree

namespace Loader

variable (l : Loader)

/-- An absolute name is the only path under which its file is looked for. -/
theorem locate?_of_isAbsolute {name path : Text} (absolute : FileTree.isAbsolute name = true) :
    l.locate? name = some path ↔ path = name ∧ (l.files.file? name).isSome = true := by
  rw [locate?, candidates, if_pos absolute, List.find?_singleton]
  cases (l.files.file? name).isSome <;> simp [eq_comm]

/-- Any other name is looked for below the search paths, and found below the first one that has a
file there. -/
theorem locate?_of_relative {name path : Text} (relative : FileTree.isAbsolute name = false) :
    l.locate? name = some path ↔ ∃ before directory behind,
      l.config.searchPaths = before ++ directory :: behind ∧ path = joinPath directory name ∧
        (l.files.file? path).isSome = true ∧
        ∀ earlier ∈ before, l.files.file? (joinPath earlier name) = none := by
  rw [locate?, candidates, if_neg (by simp [relative]), List.find?_map, Option.map_eq_some_iff]
  constructor
  · rintro ⟨directory, first, rfl⟩
    obtain ⟨found, before, behind, split, missed⟩ := List.find?_eq_some_iff_append.1 first
    exact ⟨before, directory, behind, split, rfl, found, by simpa using missed⟩
  · rintro ⟨before, directory, behind, split, rfl, found, missed⟩
    refine ⟨directory, List.find?_eq_some_iff_append.2 ⟨found, before, behind, split, ?_⟩, rfl⟩
    simpa using missed

/-- The warnings that come up at the name of a further file. -/
def warningsAt (name : Text) : List Warning :=
  match l.content? name with
  | some source => source.warnings
  | none => if l.config.verbose then [.chainedFileNotFound name] else []

variable {l}

theorem failure_of_content? (readable : l.files.Readable) {name : Text} {source : Source}
    (content : l.content? name = some source) : source.failure = none := by
  obtain ⟨path, -, found⟩ := Option.bind_eq_some_iff.1 content
  exact readable path source found

/-- Readable files are read as far as they are found, and what is not found is warned about. -/
theorem loadChain_of_readable (readable : l.files.Readable) (s : Store) (report : Report)
    (names : List Text) :
    l.loadChain s report names =
      ((names.filterMap l.content?).foldl (fun s source => (s.readResources source).1) s,
        ⟨.ok (report.merge (.total ((names.filterMap l.content?).map Source.report))),
          names.flatMap l.warningsAt⟩) := by
  induction names generalizing s report with
  | nil => simp [loadChain, Logged.quiet]
  | cons name rest ih =>
    rw [loadChain, List.flatMap_cons]
    cases content : l.content? name with
    | none =>
      rw [l.loadFile_of_absent content]
      simp only [Logged.quiet, ih]
      simp [Logged.after, content, warningsAt]
    | some source =>
      have result := s.result_readResources (failure_of_content? readable content)
      rw [l.loadFile_of_content content, ← Prod.eta (s.readResources source), result]
      simp only [ih]
      simp [Logged.after, content, warningsAt, Report.merge_assoc]

end Loader

namespace Session

/-- The names of the files that are read behind a first one: those that a resource lists, where a
single value is one name. There are none if no resource is configured or it has no value. -/
def further (s : Session) : List Text :=
  match s.loader.config.chainProperty with
  | none => []
  | some property =>
    match s.store.resolve s.objects property with
    | .ok (some (.single name)) => [name]
    | .ok (some (.list names)) => names
    | .ok none => []
    | .error _ => []

theorem chained_eq_further (s : Session)
    (wellFormed : ∀ property ∈ s.loader.config.chainProperty, Key.isValid property = true) :
    s.loader.chained s.store s.objects = .ok s.further := by
  rw [Loader.chained, further]
  cases configured : s.loader.config.chainProperty with
  | none => rfl
  | some property =>
    obtain ⟨key, -, found⟩ :=
      s.store.resolve_of_isValid s.objects (wellFormed property configured)
    simp only [found]
    rcases s.store.find s.objects key with _ | _ | _ <;> rfl

theorem run_readResources (s : Session) (sources : List Source) :
    s.run (sources.map .readResources) =
      { s with store := sources.foldl (fun s source => (s.readResources source).1) s.store } := by
  induction sources generalizing s with
  | nil => rfl
  | cons source rest ih =>
    rw [List.map_cons, run_cons, ih]
    rfl

theorem step_readResources (s : Session) {source : Source} (readable : source.failure = none) :
    s.step (.readResources source) =
      ({ s with store := (s.store.readResources source).1 },
        ⟨.ok (.report source.report), source.warnings⟩) := by
  simp only [step, answer, s.store.result_readResources readable]
  rfl

theorem replies_readResources (s : Session) {sources : List Source}
    (readable : ∀ source ∈ sources, source.failure = none) :
    s.replies (sources.map .readResources) =
      sources.map fun source => ⟨.ok (.report source.report), source.warnings⟩ := by
  induction sources generalizing s with
  | nil => rfl
  | cons source rest ih =>
    obtain ⟨first, others⟩ := List.forall_mem_cons.1 readable
    rw [List.map_cons, replies, s.step_readResources first]
    simp only [ih _ others, List.map_cons]

/-- Loading a file that is found, and those that are named behind it. -/
theorem step_loadFiles (s : Session) {initial : Text} {source : Source}
    (readable : s.loader.files.Readable)
    (wellFormed : ∀ property ∈ s.loader.config.chainProperty, Key.isValid property = true)
    (content : s.loader.content? initial = some source) :
    let names := (s.step (.readResources source)).1.further
    let sources := source :: names.filterMap s.loader.content?
    s.step (.loadFiles initial) =
      (s.run (sources.map .readResources),
        ⟨.ok (.report (.total (sources.map Source.report))),
          source.warnings ++ names.flatMap s.loader.warningsAt⟩) := by
  intro names sources
  have first := s.step_readResources (Loader.failure_of_content? readable content)
  have result := s.store.result_readResources (Loader.failure_of_content? readable content)
  have chained : s.loader.chained (s.store.readResources source).1 s.objects = .ok names := by
    have listed := chained_eq_further (s.step (.readResources source)).1
      (by rw [first]; exact wellFormed)
    rwa [first] at listed
  simp only [step, Loader.loadFiles, s.loader.loadFile_of_content content]
  rw [← Prod.eta (s.store.readResources source), result]
  simp only [chained, Loader.loadChain_of_readable readable]
  rw [run_readResources]
  simp only [sources, List.map_cons, Report.total_cons]
  rfl

/-- If every file can be read and the key of the resource that names further files is well formed,
loading fails only where the first file is not found, and changes nothing then. Otherwise it does to
the session what reading the first file and then those that are found of the named ones does, and it
reports what these report. A name is found as given if it is absolute, and otherwise below the first
search path that has a file there. -/
theorem loadFiles_reads_one_by_one (s : Session) (initial : Text)
    (readable : s.loader.files.Readable)
    (wellFormed : ∀ property ∈ s.loader.config.chainProperty, Key.isValid property = true) :
    (s.loader.locate? initial = none →
        s.step (.loadFiles initial) = (s, .quiet (.error (.configNotFound initial)))) ∧
      (∀ path, s.loader.locate? initial = some path →
        ∃ source, s.loader.files.file? path = some source ∧
          let names := (s.step (.readResources source)).1.further
          let sources := source :: names.filterMap s.loader.content?
          s.replies (sources.map .readResources) =
              sources.map (fun source => ⟨.ok (.report source.report), source.warnings⟩) ∧
            s.step (.loadFiles initial) =
              (s.run (sources.map .readResources),
                ⟨.ok (.report (.total (sources.map Source.report))),
                  source.warnings ++ names.flatMap s.loader.warningsAt⟩)) ∧
      (∀ name path, FileTree.isAbsolute name = true →
        (s.loader.locate? name = some path ↔
          path = name ∧ (s.loader.files.file? name).isSome = true)) ∧
      ∀ name path, FileTree.isAbsolute name = false →
        (s.loader.locate? name = some path ↔ ∃ before directory behind,
          s.loader.config.searchPaths = before ++ directory :: behind ∧
            path = Loader.joinPath directory name ∧ (s.loader.files.file? path).isSome = true ∧
            ∀ earlier ∈ before, s.loader.files.file? (Loader.joinPath earlier name) = none) := by
  refine ⟨fun lost => ?_, fun path located => ?_, fun _ _ => s.loader.locate?_of_isAbsolute,
    fun _ _ => s.loader.locate?_of_relative⟩
  · have absent := s.loader.content?_eq_none_iff.2 lost
    simp only [step, Loader.loadFiles, s.loader.loadFile_of_absent absent]
    rfl
  · obtain ⟨source, content⟩ : ∃ source, s.loader.content? initial = some source := by
      rw [← Option.ne_none_iff_exists', Ne, Loader.content?_eq_none_iff, located]
      simp
    refine ⟨source, ?_, ?_, s.step_loadFiles readable wellFormed content⟩
    · rwa [Loader.content?, located, Option.bind_some] at content
    · apply s.replies_readResources
      intro further mem
      obtain rfl | mem := List.mem_cons.1 mem
      · exact Loader.failure_of_content? readable content
      · obtain ⟨name, -, found⟩ := List.mem_filterMap.1 mem
        exact Loader.failure_of_content? readable found

/-- A file that is named twice is read twice; it names another file, which is not read any more. -/
theorem loadFiles_reads_one_by_one_of_repeated :
    let main : Source := .ofText "more=a|gone|a|/a\nk=0".toList
    let more : Source := .ofText "more=b\nk=1\n..=2".toList
    let files := (((FileTree.withWorkingDirectory ['/']).addFile "main".toList main).addFile
      "sub/a".toList more).addFile ['b'] (.ofText "k=3".toList)
    let loader : Loader := ⟨⟨[['.'], "sub".toList], some "more".toList, true⟩, files⟩
    let s := Session.start TypeTable.empty loader
    s.step (.loadFiles "main".toList) =
        (s.run ([main, more, more].map .readResources),
          ⟨.ok (.report ⟨6, ["..".toList, "..".toList]⟩),
            [.malformedKey "..".toList, .chainedFileNotFound "gone".toList,
              .malformedKey "..".toList, .chainedFileNotFound "/a".toList]⟩) ∧
      (s.step (.loadFiles "main".toList)).1.store.dump none = "k: 1\nmore: b\n".toList := by
  intro main more files loader s
  have readable : s.loader.files.Readable :=
    FileTree.readable_of_all_entries (by decide +kernel)
  have located : s.loader.locate? "main".toList = some "./main".toList := by decide +kernel
  obtain ⟨-, loads, -, -⟩ := s.loadFiles_reads_one_by_one "main".toList readable (by decide +kernel)
  obtain ⟨source, found, -, loaded⟩ := loads "./main".toList located
  have first : s.loader.files.file? "./main".toList = some main := by decide +kernel
  obtain rfl : source = main := Option.some.inj (found.symm.trans first)
  have names : (s.step (.readResources main)).1.further =
      ["a".toList, "gone".toList, "a".toList, "/a".toList] := by decide +kernel
  have others : ["a".toList, "gone".toList, "a".toList, "/a".toList].filterMap s.loader.content? =
      [more, more] := by decide +kernel
  simp only [names, others] at loaded
  have report : Report.total ([main, more, more].map Source.report) =
      ⟨6, ["..".toList, "..".toList]⟩ := by decide +kernel
  have warned : main.warnings ++
      ["a".toList, "gone".toList, "a".toList, "/a".toList].flatMap s.loader.warningsAt =
        [.malformedKey "..".toList, .chainedFileNotFound "gone".toList,
          .malformedKey "..".toList, .chainedFileNotFound "/a".toList] := by decide +kernel
  rw [report, warned] at loaded
  refine ⟨loaded, ?_⟩
  rw [loaded]
  decide +kernel

end Session

end ResourceLookup
