import ResourceLookup.Entry
import ResourceLookup.Proofs.Tree.Growth

/-!
# Journals

A journal lists in order what has been stored under which absolute keys. Its contents are the
texts stored last. Two journals with the same contents leave the same, however they differ.
-/

namespace ResourceLookup

/-- Absolute keys with the texts stored under them, in order. -/
abbrev Journal := List (Key × Text)

namespace Journal

/-- What a text adds to a journal, unless its key cannot be read. -/
def entry (key : Except Error Key) (value : Text) : Journal :=
  match key with
  | .ok key => [(key, value)]
  | .error _ => []

/-- What entries add to a journal. -/
def ofEntries (entries : List Entry) : Journal :=
  entries.flatMap fun e => entry (Key.parse e.key) e.value

/-- The writes from the root down. -/
def writes (journal : Journal) : List Write := journal.map fun a => ⟨a.1.steps, a.2⟩

/-- The last text for each key, by the text of the key. -/
def contents (journal : Journal) : Std.ExtTreeMap Text Text compare :=
  journal.foldl (fun contents a => contents.insert a.1.text a.2) ∅

@[simp] theorem writes_append (journal more : Journal) :
    writes (journal ++ more) = journal.writes ++ writes more :=
  List.map_append

/-- The contents are what the writes leave. -/
theorem getElem?_contents (journal : Journal) (key : Key) :
    journal.contents[key.text]? = lastWritten journal.writes key.steps := by
  induction journal using List.reverseRecOn with
  | nil => simp [contents, writes]
  | append_singleton journal last ih =>
    have inserted : contents (journal ++ [last]) =
        (contents journal).insert last.1.text last.2 := by
      simp [contents]
    have same : last.1.text = key.text ↔ last.1.steps = key.steps :=
      ⟨fun h => congrArg Key.steps (Key.ext h), fun h => congrArg Key.text (Key.steps_injective h)⟩
    rw [inserted, Std.ExtTreeMap.getElem?_insert, writes_append, ih]
    simp [writes, same]

/-- Every write goes somewhere below the root. -/
theorem way_ne_nil {journal : Journal} {w : Write} (h : w ∈ journal.writes) : w.way ≠ [] := by
  obtain ⟨a, -, rfl⟩ := List.mem_map.1 h
  exact a.1.steps_ne_nil

/-- Nothing is ever left at the root. -/
theorem lastWritten_writes_nil (journal : Journal) : lastWritten journal.writes [] = none := by
  rw [Option.eq_none_iff_forall_ne_some]
  intro value written
  obtain ⟨w, hw, same⟩ := exists_write_of_lastWritten written
  exact way_ne_nil hw same

/-- What begins a written way begins the steps of a stored key. -/
theorem exists_prefix_iff {journal : Journal} {way : List Step} :
    (∃ w ∈ journal.writes, way <+: w.way) ↔ ∃ a ∈ journal, way <+: a.1.steps := by
  simp [writes]

/-- A key is in the contents if something was written at its way. -/
theorem exists_getElem?_contents_iff {journal : Journal} {key : Key} :
    (∃ value, journal.contents[key.text]? = some value) ↔
      ∃ w ∈ journal.writes, w.way = key.steps := by
  rw [getElem?_contents]
  constructor
  · rintro ⟨value, h⟩
    exact exists_write_of_lastWritten h
  · rintro ⟨w, hw, same⟩
    exact same ▸ exists_lastWritten hw

section SameContents

variable {journal other : Journal}

/-- What was written where shows in the contents. -/
theorem exists_write_of_contents_eq (h : journal.contents = other.contents) {w : Write}
    (hw : w ∈ journal.writes) : ∃ w' ∈ other.writes, w'.way = w.way := by
  obtain ⟨a, ha, rfl⟩ := List.mem_map.1 hw
  rw [← exists_getElem?_contents_iff, ← h, exists_getElem?_contents_iff]
  exact ⟨_, hw, rfl⟩

theorem exists_prefix_iff_of_contents_eq (h : journal.contents = other.contents)
    (way : List Step) :
    (∃ w ∈ journal.writes, way <+: w.way) ↔ ∃ w ∈ other.writes, way <+: w.way := by
  constructor
  · rintro ⟨w, hw, begins⟩
    obtain ⟨w', hw', same⟩ := exists_write_of_contents_eq h hw
    exact ⟨w', hw', same ▸ begins⟩
  · rintro ⟨w, hw, begins⟩
    obtain ⟨w', hw', same⟩ := exists_write_of_contents_eq h.symm hw
    exact ⟨w', hw', same ▸ begins⟩

theorem lastWritten_eq_of_contents_eq (h : journal.contents = other.contents) {way : List Step}
    (proper : ∀ s ∈ way, IsSegment s.segment) :
    lastWritten journal.writes way = lastWritten other.writes way := by
  by_cases top : way = []
  · rw [top, lastWritten_writes_nil, lastWritten_writes_nil]
  · have steps := Key.steps_ofSteps way top proper
    rw [← steps, ← getElem?_contents, ← getElem?_contents, h]

end SameContents

end Journal

end ResourceLookup
