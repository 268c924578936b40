import ResourceLookup.Proofs.Properties.Writing
import ResourceLookup.Proofs.Session.Run
import ResourceLookup.Proofs.Tree.Listing

/-!
# Writing a store and reading it back

What a store holds can be written and read into an empty store. Both stores are then the same to a
reader, whatever was done with the first one, if every entry is safe on a line. A single entry that
is not safe is never read back as it is.
-/

namespace ResourceLookup

namespace Entry

/-- Entries that can be read write at their ways. -/
theorem writes_ofEntries {entries : List Entry}
    (keys : ∀ e ∈ entries, ∃ key : Key, key.text = e.key) :
    (Journal.ofEntries entries).writes = entries.map write := by
  induction entries with
  | nil => rfl
  | cons e entries ih =>
    obtain ⟨⟨key, text⟩, rest⟩ := List.forall_mem_cons.1 keys
    have first : (Journal.entry (Key.parse e.key) e.value).writes = [e.write] := by
      rw [← text, Key.parse_text]
      show [(⟨key.steps, e.value⟩ : Write)] = [e.write]
      rw [write, way, ← text]
      rfl
    show (Journal.entry (Key.parse e.key) e.value ++ Journal.ofEntries entries).writes = _
    rw [Journal.writes_append, first, ih rest]
    rfl

end Entry

namespace Store

/-- The listing of a store, read into an empty one, makes the same store. -/
theorem readResources_listing {s : Store} {log : List Write} (grown : s.tree.Grown log)
    (rootless : lastWritten log [] = none) {source : Source}
    (read : Properties.parse source = ⟨.ok (s.tree.entriesFrom Tree.root), []⟩)
    (hierarchy : Hierarchy) :
    ∃ fresh, (Store.new hierarchy).readResources source =
        (fresh, ⟨.ok ⟨(s.tree.entriesFrom Tree.root).length, []⟩, []⟩) ∧
      fresh.dump none = s.dump none ∧ fresh.tree.size = s.tree.size := by
  obtain ⟨ways, represents⟩ := grown.represents
  have keys : ∀ e ∈ s.tree.entriesFrom Tree.root, ∃ key : Key, key.text = e.key :=
    fun e he => represents.exists_key he
  let fresh := ((Store.new hierarchy).insertAll (s.tree.entriesFrom Tree.root)).1
  have report := (Store.new hierarchy).insertAll_report_of_isValid
    fun e he => represents.isValid_key he
  have stored := (Store.new hierarchy).extends_insertAll (s.tree.entriesFrom Tree.root)
  obtain ⟨freshWays, fresh_represents⟩ := (stored.grown .empty).represents
  rw [List.nil_append, Entry.writes_ofEntries keys] at fresh_represents
  have same := represents.lastWritten_listing rootless
  refine ⟨fresh, ?_, ?_, ?_⟩
  · rw [readResources_of_parse _ read, report]
    rfl
  · show (fresh.tree.entriesFrom Tree.root).flatMap Tree.entryLine = _
    rw [fresh_represents.entriesFrom_root_eq represents same]
    rfl
  · exact fresh_represents.size_eq_of_lastWritten_eq represents same

theorem writeResources_eq_ok_iff {s : Store} {header : Option Text} {sink : Sink} {text : Text} :
    s.writeResources header sink = .ok text ↔
      sink.capacity.any (· < (s.written header).utf8.length) = false ∧ s.written header = text := by
  rw [writeResources, Sink.write]
  cases sink.capacity.any (· < (s.written header).utf8.length) <;> simp

end Store

namespace Session

/-- A store can always be written. Whatever is then read is the same without a header. After any
run what is written is the listing of the nodes that hold a text. If every entry is safe on a line,
this listing is read back without warnings, and reading it into an empty store makes a store with
the same listing and as many nodes. If there is but one entry, and it is not safe, it is not read
back. -/
theorem read_back_written :
    (∀ (s : Store) (header : Option Text),
      (∃ text, s.writeResources header .unlimited = .ok text) ∧
        ∀ (sink sink' : Sink) (text plain : Text), s.writeResources header sink = .ok text →
          s.writeResources none sink' = .ok plain →
            (Properties.parse (.ofText text)).outcome =
              (Properties.parse (.ofText plain)).outcome) ∧
    ∀ (hierarchy : Hierarchy) (loader : Loader) (operations : List Operation),
      let s := ((start hierarchy loader).run operations).store
      let listing := s.tree.entriesFrom Tree.root
      listing.Perm s.tree.valued ∧ s.dump none = listing.flatMap Tree.entryLine ∧
        ∀ (header : Option Text) (sink : Sink) (text : Text),
          s.writeResources header sink = .ok text →
            ((∀ e ∈ s.tree.valued, e.LineSafe) →
              Properties.parse (.ofText text) = ⟨.ok listing, []⟩ ∧
                ∃ fresh, (Store.new s.hierarchy).readResources (.ofText text) =
                    (fresh, ⟨.ok ⟨listing.length, []⟩, []⟩) ∧
                  fresh.dump none = s.dump none ∧ fresh.tree.size = s.tree.size) ∧
            ∀ e, s.tree.valued = [e] → ¬ e.LineSafe →
              (Properties.parse (.ofText text)).outcome ≠ .ok [e] := by
  refine ⟨?_, ?_⟩
  · intro s header
    refine ⟨⟨_, Store.writeResources_eq_ok_iff.2 ⟨rfl, rfl⟩⟩, ?_⟩
    intro sink sink' text plain written bare
    obtain ⟨-, rfl⟩ := Store.writeResources_eq_ok_iff.1 written
    obtain ⟨-, rfl⟩ := Store.writeResources_eq_ok_iff.1 bare
    exact Properties.outcome_parse_header header (s.dump none)
  · intro hierarchy loader operations s listing
    have grown := grown_run hierarchy loader operations
    obtain ⟨ways, represents⟩ := grown.represents
    have perm : listing.Perm s.tree.valued := represents.entriesFrom_root_perm
    have valid : ∀ e ∈ listing, Key.isValid e.key = true :=
      fun e he => represents.isValid_key he
    refine ⟨perm, rfl, ?_⟩
    intro header sink text written
    obtain ⟨-, rfl⟩ := Store.writeResources_eq_ok_iff.1 written
    constructor
    · intro safe
      have read : Properties.parse (.ofText (s.written header)) = ⟨.ok listing, []⟩ :=
        Properties.parse_of_lineSafe
          (fun e he => ⟨safe e (perm.mem_iff.1 he), valid e he⟩) header
      refine ⟨read, ?_⟩
      exact Store.readResources_listing grown (Journal.lastWritten_writes_nil _) read _
    · intro e single notSafe read
      have alone : listing = [e] := List.perm_singleton.1 (single ▸ perm)
      have line : s.dump none = Tree.entryLine e := by
        show listing.flatMap Tree.entryLine = _
        rw [alone, List.flatMap_singleton]
      have bare := (Properties.outcome_parse_header header (s.dump none)).symm.trans read
      rw [line] at bare
      exact notSafe (Entry.lineSafe_of_mem (valid e (alone ▸ List.mem_singleton_self e)) bare
        (List.mem_singleton_self e))

/-- Values that look like separators and comments come back below a header, and a name that opens a
comment does not. -/
theorem read_back_written_below_header :
    let empty := start TypeTable.empty ⟨.standard, ⟨∅, []⟩⟩
    let header := some "# saved\nby the application".toList
    let s := (empty.run [.insert "app*title".toList (.single "= a: #b !c".toList),
      .insertList "Panel.?".toList ["on".toList, "off".toList]]).store
    let listing := s.tree.entriesFrom Tree.root
    let commented := (empty.run [.insert "#app".toList (.single ['1'])]).store
    (∃ text fresh, s.writeResources header .unlimited = .ok text ∧
      Properties.parse (.ofText text) = ⟨.ok listing, []⟩ ∧
      (Store.new s.hierarchy).readResources (.ofText text) =
        (fresh, ⟨.ok ⟨listing.length, []⟩, []⟩) ∧
      fresh.dump none = s.dump none ∧ fresh.tree.size = s.tree.size) ∧
    ∃ text, commented.writeResources header .unlimited = .ok text ∧
      (Properties.parse (.ofText text)).outcome ≠ .ok [⟨"#app".toList, ['1']⟩] := by
  intro empty header s listing commented
  obtain ⟨writes, reads⟩ := read_back_written
  constructor
  · obtain ⟨text, written⟩ := (writes s header).1
    obtain ⟨-, -, back⟩ := reads TypeTable.empty ⟨.standard, ⟨∅, []⟩⟩ _
    have safe : ∀ e ∈ s.tree.valued, e.LineSafe := by decide +kernel
    obtain ⟨parsed, fresh, read, same⟩ := (back header .unlimited text written).1 safe
    exact ⟨text, fresh, written, parsed, read, same⟩
  · obtain ⟨text, written⟩ := (writes commented header).1
    obtain ⟨-, -, back⟩ := reads TypeTable.empty ⟨.standard, ⟨∅, []⟩⟩ _
    have single : commented.tree.valued = [⟨"#app".toList, ['1']⟩] := by decide +kernel
    have notSafe : ¬ (⟨"#app".toList, ['1']⟩ : Entry).LineSafe := by decide +kernel
    exact ⟨text, written, (back header .unlimited text written).2 _ single notSafe⟩

end Session

end ResourceLookup
