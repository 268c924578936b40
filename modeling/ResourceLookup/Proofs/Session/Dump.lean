import Mathlib.Data.List.Infix
import ResourceLookup.Proofs.Session.ReadBack
import ResourceLookup.Proofs.Tree.Listing

/-!
# Dumps

A dump tells what has been stored, each key once with its last text, in the order of the steps of
the keys. Below an absolute name it tells one block of this listing, that of the keys which go on
from the name. Nothing else about the history of a store shows in a dump.
-/

namespace ResourceLookup

namespace Journal

variable {journal : Journal}

/-- The last text for each key as an entry of its own. -/
def entries (journal : Journal) : List Entry :=
  journal.contents.toList.map fun a => ⟨a.1, a.2⟩

theorem mem_entries_iff {e : Entry} :
    e ∈ journal.entries ↔ journal.contents[e.key]? = some e.value := by
  rw [← Std.ExtTreeMap.mem_toList_iff_getElem?_eq_some, entries, List.mem_map]
  constructor
  · rintro ⟨a, ha, rfl⟩
    exact ha
  · intro h
    exact ⟨(e.key, e.value), h, rfl⟩

theorem nodup_entries (journal : Journal) : journal.entries.Nodup := by
  rw [entries, List.nodup_iff_pairwise_ne, List.pairwise_map]
  refine journal.contents.distinct_keys_toList.imp ?_
  intro a b apart same
  exact apart (Std.compare_eq_iff_eq.2 (congrArg Entry.key same))

/-- The contents have keys only. -/
theorem exists_key_of_getElem?_contents {name value : Text}
    (h : journal.contents[name]? = some value) : ∃ key : Key, key.text = name := by
  induction journal using List.reverseRecOn with
  | nil => simp [contents] at h
  | append_singleton journal last ih =>
    have inserted : contents (journal ++ [last]) =
        (contents journal).insert last.1.text last.2 := by
      simp [contents]
    rw [inserted, Std.ExtTreeMap.getElem?_insert] at h
    split at h
    · exact ⟨last.1, Std.compare_eq_iff_eq.1 ‹_›⟩
    · exact ih h

end Journal

namespace Tree

variable {t : Tree} {ways : List (List Step)} {i : NodeIndex} {way : List Step}

/-- What is listed is what the journal left. -/
theorem Represents.entriesFrom_root_perm_entries {journal : Journal}
    (h : Represents t ways journal.writes) : (t.entriesFrom root).Perm journal.entries := by
  have ordered := h.pairwise_entriesFrom h.root_way
  refine (List.perm_ext_iff_of_nodup (Entry.nodup_of_pairwise_before ordered)
    journal.nodup_entries).2 fun e => ?_
  rw [Journal.mem_entries_iff]
  constructor
  · intro listed
    obtain ⟨key, text⟩ := h.exists_key listed
    have left := (h.mem_entriesFrom_root_iff.1 listed).2.2
    rw [← text, Journal.getElem?_contents]
    rwa [Entry.way, ← text] at left
  · intro left
    obtain ⟨key, text⟩ := Journal.exists_key_of_getElem?_contents left
    have spelled : e.way = key.steps := by
      rw [Entry.way, ← text]
      rfl
    rw [← text, Journal.getElem?_contents] at left
    rw [h.mem_entriesFrom_root_iff, spelled]
    exact ⟨key.steps_ne_nil, key.pathText_steps.trans text, left⟩

namespace Charted

/-- What is listed from a node stands together in the whole listing. The induction goes up the way
to the root. -/
theorem entriesFrom_isInfix (h : Charted t ways) (hi : ways[i]? = some way) :
    t.entriesFrom i <:+: t.entriesFrom root := by
  induction way using List.reverseRecOn generalizing i with
  | nil =>
    obtain rfl := (h.way_eq_nil_iff hi).1 rfl
    exact List.infix_rfl
  | append_singleton way step ih =>
    obtain ⟨parent, -, hp⟩ := h.parent hi
    have listed : i ∈ (t.node parent).allChildren := (h.mem_allChildren_iff hp).2 ⟨step, hi⟩
    have block : t.entriesFrom i <:+: (t.node parent).allChildren.flatMap t.entriesFrom :=
      List.infix_of_mem_flatten (List.mem_map_of_mem listed)
    have within : t.entriesFrom i <:+: t.entriesFrom parent := by
      rw [h.entriesFrom_eq hp]
      exact block.trans (List.suffix_append _ _).isInfix
    exact within.trans (ih hp)

/-- What is listed from a node are the entries whose ways go on from the way to the node. -/
theorem entriesFrom_eq_filter (h : Charted t ways) (hi : ways[i]? = some way) :
    t.entriesFrom i = (t.entriesFrom root).filter (way <+: ·.way) := by
  refine Entry.eq_of_pairwise_before (h.pairwise_entriesFrom hi)
    ((h.pairwise_entriesFrom h.root_way).filter _) fun e => ?_
  rw [h.mem_entriesFrom_iff hi, List.mem_filter, h.mem_entriesFrom_iff h.root_way,
    decide_eq_true_eq]
  constructor
  · rintro ⟨begins, stored⟩
    exact ⟨⟨List.nil_prefix, stored⟩, begins⟩
  · rintro ⟨⟨-, stored⟩, begins⟩
    exact ⟨begins, stored⟩

/-- A node that has an absolute name is found by it, and the name is a key that spells the way to
the node. -/
theorem exists_key_of_absoluteName (h : Charted t ways) {name : Text} (inside : i < t.size)
    (named : (t.node i).absoluteName = some name) :
    t.findPath? name = some i ∧ ∃ key : Key, key.text = name ∧ ways[i]? = some key.steps := by
  have below : i ≠ root := by
    rintro rfl
    rw [h.absoluteName_eq h.root_way] at named
    cases named
  obtain ⟨key, text, -⟩ := h.absoluteName_spells inside below
  obtain rfl : key.text = name := Option.some.inj (text.symm.trans named)
  have found := h.findPath?_eq_some_iff.2 ⟨inside, below, named⟩
  exact ⟨found, key, rfl, h.findPath?_text_iff.1 found⟩

end Charted

end Tree

namespace Session

/-- A dump of a store after any run tells the last text stored under each key since the last reset,
once, in the order of the steps: a key before those that go on from it, tight steps before loose
ones, names before types and types before `?`, and else by code point. Below the absolute name of
a node it tells the block of the keys that go on from there. Below any other name it tells
everything. Runs that leave the same contents are dumped alike. -/
theorem dump_eq_sorted_contents (hierarchy : Hierarchy) (loader : Loader)
    (operations : List Operation) :
    let s := ((start hierarchy loader).run operations).store
    let journal := (start hierarchy loader).journal operations
    let entries := s.tree.entriesFrom Tree.root
    entries.Perm journal.entries ∧ entries.Pairwise Entry.Before ∧
      s.dump none = entries.flatMap Tree.entryLine ∧
      (∀ i < s.tree.size, ∀ name, (s.tree.node i).absoluteName = some name →
        ∃ key, Key.parse name = .ok key ∧ key.text = name ∧
          entries.filter (key.steps <+: ·.way) <:+: entries ∧
          s.dump (some name) = (entries.filter (key.steps <+: ·.way)).flatMap Tree.entryLine) ∧
      (∀ name, (∀ i < s.tree.size, (s.tree.node i).absoluteName ≠ some name) →
        s.dump (some name) = s.dump none) ∧
      ∀ (hierarchy' : Hierarchy) (loader' : Loader) (operations' : List Operation),
        ((start hierarchy' loader').journal operations').contents = journal.contents →
          ((start hierarchy' loader').run operations').store.dump none = s.dump none := by
  intro s journal entries
  obtain ⟨ways, represents⟩ := (grown_run hierarchy loader operations).represents
  have chart := represents.toCharted
  refine ⟨represents.entriesFrom_root_perm_entries, chart.pairwise_entriesFrom chart.root_way,
    rfl, ?_, ?_, ?_⟩
  · intro i inside name named
    obtain ⟨found, key, rfl, hi⟩ := chart.exists_key_of_absoluteName inside named
    have block := chart.entriesFrom_eq_filter hi
    refine ⟨key, key.parse_text, rfl, block ▸ chart.entriesFrom_isInfix hi, ?_⟩
    rw [← block, Store.dump, Option.bind_some, found]
    rfl
  · intro name unnamed
    have missing : s.tree.findPath? name = none := by
      rw [Option.eq_none_iff_forall_ne_some]
      intro i found
      obtain ⟨inside, -, named⟩ := chart.findPath?_eq_some_iff.1 found
      exact unnamed i inside named
    rw [Store.dump, Option.bind_some, missing]
    rfl
  · intro hierarchy' loader' operations' same
    obtain ⟨others, represents'⟩ := (grown_run hierarchy' loader' operations').represents
    have left : ((start hierarchy' loader').journal operations').entries = journal.entries := by
      rw [Journal.entries, same, Journal.entries]
    have perm := represents'.entriesFrom_root_perm_entries.trans
      (left ▸ represents.entriesFrom_root_perm_entries.symm)
    have listing := Entry.eq_of_pairwise_before
      (represents'.pairwise_entriesFrom represents'.root_way)
      (chart.pairwise_entriesFrom chart.root_way) fun _ => perm.mem_iff
    exact congrArg (List.flatMap Tree.entryLine) listing

/-- A key that was stored late, with keys below it of every kind and one beside it. -/
theorem dump_eq_sorted_contents_below_app :
    let operations : List Operation :=
      [.insert "app*title".toList (.single ['0']), .insert "app.Panel.x".toList (.single ['1']),
        .insert "app.y".toList (.single ['2']), .insert "app.y".toList (.single ['3']),
        .insert "apps".toList (.single ['4']), .insert "app".toList (.single ['5'])]
    let s := ((start TypeTable.empty ⟨.standard, ⟨∅, []⟩⟩).run operations).store
    1 < s.tree.size ∧ (s.tree.node 1).absoluteName = some "app".toList ∧
      (∃ key, Key.parse "app".toList = .ok key ∧ s.dump (some "app".toList) =
        ((s.tree.entriesFrom Tree.root).filter (key.steps <+: ·.way)).flatMap Tree.entryLine) ∧
      s.dump (some "app".toList) =
        "app: 5\napp.y: 3\napp.Panel.x: 1\napp*title: 0\n".toList := by
  intro operations s
  have inside : 1 < s.tree.size := by decide +kernel
  have named : (s.tree.node 1).absoluteName = some "app".toList := by decide +kernel
  obtain ⟨-, -, -, block, -⟩ :=
    dump_eq_sorted_contents TypeTable.empty ⟨.standard, ⟨∅, []⟩⟩ operations
  obtain ⟨key, read, -, -, dumped⟩ := block 1 inside "app".toList named
  exact ⟨inside, named, ⟨key, read, dumped⟩, by decide +kernel⟩

end Session

end ResourceLookup
