import Mathlib.Data.List.Lex
import ResourceLookup.Proofs.Tree.Growth

/-!
# Listings

What a tree holds is listed from a node downwards. A listing has each node that holds a text once,
and it is in the order of the ways to the nodes, position by position. So it is settled by the texts
that were written last, in whatever order the nodes came about.
-/

namespace ResourceLookup

/-- Texts are compared by code point. -/
theorem Text.compare_eq_lt_iff {s t : Text} : compare s t = .lt ↔ s < t := by
  induction s generalizing t with
  | nil =>
    cases t with
    | nil => simp
    | cons d t => simp [List.compare_nil_cons]
  | cons c s ih =>
    cases t with
    | nil => simp [List.compare_cons_nil]
    | cons d t =>
      have first : compare c d = .lt ↔ c < d := compareOfLessAndEq_eq_lt
      rw [List.compare_cons_cons, Ordering.then_eq_lt, first, Std.compare_eq_iff_eq, ih,
        List.cons_lt_cons_iff]

/-- The place of a category in a listing. -/
def Category.index : Category → Nat
  | byName => 0
  | byType => 1
  | singleMatch => 2

/-- A slot comes before another one with the same binding: instances before types, types before
`?`, and otherwise by code point. -/
def slotBefore (category : Category) (segment : Text) (category' : Category) (segment' : Text) :
    Prop :=
  category.index < category'.index ∨ category = category' ∧ segment < segment'

namespace Step

/-- A step comes before another one: tight steps before loose ones. -/
def Before (s s' : Step) : Prop :=
  s.binding.index < s'.binding.index ∨ s.binding = s'.binding ∧
    slotBefore (.ofSegment s.segment) s.segment (.ofSegment s'.segment) s'.segment

instance : Std.Asymm Before where
  asymm s s' := by
    rintro (less | ⟨same, less | ⟨same', less⟩⟩) (more | ⟨back, more | ⟨back', more⟩⟩)
    · omega
    · rw [back] at less
      omega
    · rw [back] at less
      omega
    · rw [same] at more
      omega
    · omega
    · rw [back'] at less
      omega
    · rw [same] at more
      omega
    · rw [same'] at more
      omega
    · exact List.lt_asymm less more

end Step

/-- The children in a map from names are listed by name. -/
theorem pairwise_toList_map_snd (children : Std.ExtTreeMap Text NodeIndex compare) :
    (children.toList.map (·.2)).Pairwise fun child child' => ∃ segment segment' : Text,
      children[segment]? = some child ∧ children[segment']? = some child' ∧
        segment < segment' := by
  rw [List.pairwise_map]
  refine Std.ExtTreeMap.ordered_keys_toList.imp_of_mem ?_
  intro a b ha hb less
  exact ⟨a.1, b.1, Std.ExtTreeMap.mem_toList_iff_getElem?_eq_some.1 ha,
    Std.ExtTreeMap.mem_toList_iff_getElem?_eq_some.1 hb, Text.compare_eq_lt_iff.1 less⟩

theorem mem_toList_map_snd_iff {children : Std.ExtTreeMap Text NodeIndex compare}
    {child : NodeIndex} :
    child ∈ children.toList.map (·.2) ↔ ∃ segment : Text, children[segment]? = some child := by
  rw [List.mem_map]
  constructor
  · rintro ⟨⟨segment, _⟩, mem, rfl⟩
    exact ⟨segment, Std.ExtTreeMap.mem_toList_iff_getElem?_eq_some.1 mem⟩
  · rintro ⟨segment, held⟩
    exact ⟨(segment, child), Std.ExtTreeMap.mem_toList_iff_getElem?_eq_some.2 held, rfl⟩

namespace ChildSet

variable {children : ChildSet} {child : NodeIndex}

theorem holds_byName {segment : Text} (h : children.byName[segment]? = some child) :
    children.Holds .byName segment child := ⟨h, by simp⟩

theorem holds_byType {segment : Text} (h : children.byType.children[segment]? = some child) :
    children.Holds .byType segment child := ⟨h, by simp⟩

theorem holds_single (h : children.single.child = some child) :
    children.Holds .singleMatch ResourceLookup.singleMatch child := ⟨h, fun _ => rfl⟩

theorem mem_toList_iff :
    child ∈ children.toList ↔ ∃ category segment, children.Holds category segment child := by
  rw [toList, TypeIndex.toList, List.mem_append, List.mem_append, mem_toList_map_snd_iff,
    mem_toList_map_snd_iff, Option.mem_toList]
  constructor
  · rintro ((⟨segment, held⟩ | ⟨segment, held⟩) | held)
    · exact ⟨_, segment, holds_byName held⟩
    · exact ⟨_, segment, holds_byType held⟩
    · exact ⟨_, _, holds_single held⟩
  · rintro ⟨category, segment, held, -⟩
    cases category with
    | byName => exact .inl (.inl ⟨segment, held⟩)
    | byType => exact .inl (.inr ⟨segment, held⟩)
    | singleMatch => exact .inr held

/-- The children are listed slot by slot. -/
theorem pairwise_toList (children : ChildSet) :
    children.toList.Pairwise fun child child' => ∃ category segment category' segment',
      children.Holds category segment child ∧ children.Holds category' segment' child' ∧
        slotBefore category segment category' segment' := by
  rw [toList, TypeIndex.toList, List.pairwise_append, List.pairwise_append]
  refine ⟨⟨?_, ?_, ?_⟩, ?_, ?_⟩
  · refine (pairwise_toList_map_snd children.byName).imp ?_
    rintro child child' ⟨segment, segment', held, held', less⟩
    exact ⟨_, _, _, _, holds_byName held, holds_byName held', .inr ⟨rfl, less⟩⟩
  · refine (pairwise_toList_map_snd children.byType.children).imp ?_
    rintro child child' ⟨segment, segment', held, held', less⟩
    exact ⟨_, _, _, _, holds_byType held, holds_byType held', .inr ⟨rfl, less⟩⟩
  · intro child named child' typed
    obtain ⟨segment, held⟩ := mem_toList_map_snd_iff.1 named
    obtain ⟨segment', held'⟩ := mem_toList_map_snd_iff.1 typed
    exact ⟨_, _, _, _, holds_byName held, holds_byType held', .inl (by decide)⟩
  · cases children.single.child <;> simp
  · intro child keyed child' single
    have held' := holds_single (Option.mem_toList.1 single)
    rcases List.mem_append.1 keyed with named | typed
    · obtain ⟨segment, held⟩ := mem_toList_map_snd_iff.1 named
      exact ⟨_, _, _, _, holds_byName held, held', .inl (by decide)⟩
    · obtain ⟨segment, held⟩ := mem_toList_map_snd_iff.1 typed
      exact ⟨_, _, _, _, holds_byType held, held', .inl (by decide)⟩

end ChildSet

namespace Entry

/-- The way that the key of an entry spells. -/
def way (e : Entry) : List Step := Step.ofText e.key

/-- An entry comes before another one if its way does, position by position. -/
def Before (e f : Entry) : Prop := List.Lex Step.Before e.way f.way

instance : Std.Asymm Before where
  asymm _ _ before after := asymm_of (List.Lex Step.Before) before after

theorem nodup_of_pairwise_before {entries : List Entry} (ordered : entries.Pairwise Before) :
    entries.Nodup := by
  refine ordered.imp ?_
  rintro e _ before rfl
  exact asymm before before

/-- Listings in order with the same entries are the same. -/
theorem eq_of_pairwise_before {entries others : List Entry} (ordered : entries.Pairwise Before)
    (ordered' : others.Pairwise Before) (same : ∀ e, e ∈ entries ↔ e ∈ others) :
    entries = others := by
  have perm : entries.Perm others :=
    (List.perm_ext_iff_of_nodup (nodup_of_pairwise_before ordered)
      (nodup_of_pairwise_before ordered')).2 same
  refine List.Perm.eq_of_pairwise ?_ ordered ordered' perm
  intro e f _ _ before after
  exact absurd after (asymm before)

/-- What an entry writes. -/
def write (e : Entry) : Write := ⟨e.way, e.value⟩

theorem nodup_map_way {entries : List Entry} (ordered : entries.Pairwise Before) :
    ((entries.map write).map (·.way)).Nodup := by
  rw [List.map_map, List.nodup_iff_pairwise_ne, List.pairwise_map]
  refine ordered.imp ?_
  intro e f before same
  have same : e.way = f.way := same
  rw [Before, same] at before
  exact asymm before before

end Entry

namespace Tree.Charted

variable {t : Tree} {ways : List (List Step)} {i j child : NodeIndex} {way : List Step} {e : Entry}

theorem mem_allChildren_iff (h : Charted t ways) (hi : ways[i]? = some way) :
    child ∈ (t.node i).allChildren ↔ ∃ step, ways[child]? = some (way ++ [step]) := by
  rw [Node.allChildren, List.mem_flatMap]
  constructor
  · rintro ⟨b, -, listed⟩
    obtain ⟨category, segment, held⟩ := ChildSet.mem_toList_iff.1 listed
    exact ⟨_, ((h.holds_iff hi b category segment child).1 held).2⟩
  · rintro ⟨⟨b, segment⟩, hc⟩
    exact ⟨b, Binding.mem_all b, ChildSet.mem_toList_iff.2
      ⟨_, segment, (h.holds_iff hi b _ segment child).2 ⟨rfl, hc⟩⟩⟩

/-- The children of a node are listed step by step. -/
theorem pairwise_allChildren (h : Charted t ways) (hi : ways[i]? = some way) :
    (t.node i).allChildren.Pairwise fun child child' => ∃ step step',
      ways[child]? = some (way ++ [step]) ∧ ways[child']? = some (way ++ [step']) ∧
        step.Before step' := by
  have within (b : Binding) : ((t.node i).children b).toList.Pairwise fun child child' =>
      ∃ step step', ways[child]? = some (way ++ [step]) ∧
        ways[child']? = some (way ++ [step']) ∧ step.Before step' := by
    refine (ChildSet.pairwise_toList _).imp ?_
    rintro child child' ⟨category, segment, category', segment', held, held', before⟩
    obtain ⟨rfl, hc⟩ := (h.holds_iff hi _ _ _ _).1 held
    obtain ⟨rfl, hc'⟩ := (h.holds_iff hi _ _ _ _).1 held'
    exact ⟨_, _, hc, hc', .inr ⟨rfl, before⟩⟩
  rw [Node.allChildren, Binding.all, List.flatMap_cons, List.flatMap_singleton,
    List.pairwise_append]
  refine ⟨within .tight, within .loose, ?_⟩
  intro child tight child' loose
  obtain ⟨category, segment, held⟩ := ChildSet.mem_toList_iff.1 tight
  obtain ⟨category', segment', held'⟩ := ChildSet.mem_toList_iff.1 loose
  exact ⟨_, _, ((h.holds_iff hi _ _ _ _).1 held).2, ((h.holds_iff hi _ _ _ _).1 held').2,
    .inl Nat.zero_lt_one⟩

theorem lt_of_child (h : Charted t ways) (hi : ways[i]? = some way) {step : Step}
    (hc : ways[child]? = some (way ++ [step])) : i < child ∧ child < t.size := by
  obtain ⟨parent, less, hp⟩ := h.parent hc
  exact ⟨h.index_unique hp hi ▸ less, h.lt_size hc⟩

/-- Every child is listed with what is below it. -/
theorem entriesFrom_eq (h : Charted t ways) (hi : ways[i]? = some way) :
    t.entriesFrom i =
      (t.node i).stored.toList ++ (t.node i).allChildren.flatMap t.entriesFrom := by
  rw [entriesFrom]
  congr 1
  refine List.flatMap_congr fun child hc => ?_
  obtain ⟨step, hc⟩ := (h.mem_allChildren_iff hi).1 hc
  rw [dif_pos (h.lt_of_child hi hc)]

/-- What a node holds is listed under its way. -/
theorem stored_eq_some_iff (h : Charted t ways) (hi : ways[i]? = some way) :
    (t.node i).stored = some e ↔
      way ≠ [] ∧ Step.pathText way = e.key ∧ (t.node i).data = some e.value := by
  rw [Node.stored, h.absoluteName_eq hi, absoluteName]
  by_cases top : way = []
  · simp [top]
  · rw [if_neg top]
    cases (t.node i).data with
    | none => simp
    | some value =>
      obtain ⟨key, value'⟩ := e
      simp [top]

theorem lt_size_of_stored (stored : (t.node i).stored = some e) : i < t.size := by
  by_contra beyond
  rw [node_of_size_le (Nat.le_of_not_lt beyond)] at stored
  cases stored

theorem way_eq_of_stored (h : Charted t ways) (hi : ways[i]? = some way)
    (stored : (t.node i).stored = some e) : e.way = way := by
  obtain ⟨-, key, -⟩ := (h.stored_eq_some_iff hi).1 stored
  rw [Entry.way, ← key, Step.ofText_pathText (h.segments way (List.mem_of_getElem? hi))]

/-- The listing from a node has what is held at the ways that go on from there. -/
theorem mem_entriesFrom_iff (h : Charted t ways) (hi : ways[i]? = some way) :
    e ∈ t.entriesFrom i ↔
      way <+: e.way ∧ ∃ j, ways[j]? = some e.way ∧ (t.node j).stored = some e := by
  induction i using entriesFrom.induct t generalizing way with
  | case1 i ih =>
    rw [h.entriesFrom_eq hi, List.mem_append, Option.mem_toList, List.mem_flatMap]
    constructor
    · rintro (stored | ⟨child, hc, below⟩)
      · obtain rfl := h.way_eq_of_stored hi stored
        exact ⟨List.prefix_rfl, i, hi, stored⟩
      · obtain ⟨step, hc⟩ := (h.mem_allChildren_iff hi).1 hc
        obtain ⟨begins, held⟩ := (ih child (h.lt_of_child hi hc) hc).1 below
        exact ⟨(List.prefix_append way [step]).trans begins, held⟩
    · rintro ⟨⟨rest, whole⟩, j, hj, stored⟩
      cases rest with
      | nil =>
        rw [List.append_nil] at whole
        exact .inl (h.index_unique hi (whole ▸ hj) ▸ stored)
      | cons step rest =>
        rw [List.append_cons] at whole
        have begins : way ++ [step] <+: e.way := ⟨rest, whole⟩
        obtain ⟨child, hc⟩ :=
          List.getElem?_of_mem (h.mem_of_prefix (List.mem_of_getElem? hj) begins)
        exact .inr ⟨child, (h.mem_allChildren_iff hi).2 ⟨step, hc⟩,
          (ih child (h.lt_of_child hi hc) hc).2 ⟨begins, j, hj, stored⟩⟩

/-- A listing is in order. -/
theorem pairwise_entriesFrom (h : Charted t ways) (hi : ways[i]? = some way) :
    (t.entriesFrom i).Pairwise Entry.Before := by
  induction i using entriesFrom.induct t generalizing way with
  | case1 i ih =>
    rw [h.entriesFrom_eq hi, List.pairwise_append, List.pairwise_flatMap]
    refine ⟨?_, ⟨?_, ?_⟩, ?_⟩
    · cases (t.node i).stored <;> simp
    · intro child hc
      obtain ⟨step, hc⟩ := (h.mem_allChildren_iff hi).1 hc
      exact ih child (h.lt_of_child hi hc) hc
    · refine (h.pairwise_allChildren hi).imp ?_
      rintro child child' ⟨step, step', hc, hc', before⟩ e he f hf
      obtain ⟨⟨rest, left⟩, -⟩ := (h.mem_entriesFrom_iff hc).1 he
      obtain ⟨⟨rest', right⟩, -⟩ := (h.mem_entriesFrom_iff hc').1 hf
      rw [Entry.Before, ← left, ← right, ← List.append_cons, ← List.append_cons]
      exact List.Lex.append_left _ (.rel before) way
    · intro e stored f below
      obtain ⟨child, hc, below⟩ := List.mem_flatMap.1 below
      obtain ⟨step, hc⟩ := (h.mem_allChildren_iff hi).1 hc
      obtain ⟨⟨rest, right⟩, -⟩ := (h.mem_entriesFrom_iff hc).1 below
      rw [Entry.Before, h.way_eq_of_stored hi (Option.mem_toList.1 stored), ← right,
        ← List.append_cons]
      simpa using List.Lex.append_left Step.Before (.nil : List.Lex _ [] (step :: rest)) way

end Tree.Charted

namespace Tree.Represents

variable {t t' : Tree} {ways ways' : List (List Step)} {log log' : List Write}

/-- The whole listing is told by the log. -/
theorem mem_entriesFrom_root_iff (h : Represents t ways log) {e : Entry} :
    e ∈ t.entriesFrom root ↔
      e.way ≠ [] ∧ Step.pathText e.way = e.key ∧ lastWritten log e.way = some e.value := by
  rw [h.mem_entriesFrom_iff h.root_way]
  constructor
  · rintro ⟨-, j, hj, stored⟩
    obtain ⟨nonempty, key, data⟩ := (h.stored_eq_some_iff hj).1 stored
    exact ⟨nonempty, key, h.data_eq hj ▸ data⟩
  · rintro ⟨nonempty, key, left⟩
    obtain ⟨w, hw, same⟩ := exists_write_of_lastWritten left
    obtain ⟨j, hj⟩ := List.getElem?_of_mem
      ((h.mem_iff e.way).2 (.inr ⟨w, hw, same ▸ List.prefix_rfl⟩))
    refine ⟨List.nil_prefix, j, hj, (h.stored_eq_some_iff hj).2 ⟨nonempty, key, ?_⟩⟩
    rw [h.data_eq hj, left]

/-- What is listed has a key. -/
theorem exists_key (h : Represents t ways log) {e : Entry} (mem : e ∈ t.entriesFrom root) :
    ∃ key : Key, key.text = e.key := by
  obtain ⟨-, j, hj, stored⟩ := (h.mem_entriesFrom_iff h.root_way).1 mem
  obtain ⟨nonempty, text, -⟩ := (h.stored_eq_some_iff hj).1 stored
  exact ⟨.ofSteps e.way nonempty (h.segments _ (List.mem_of_getElem? hj)), text⟩

theorem isValid_key (h : Represents t ways log) {e : Entry} (mem : e ∈ t.entriesFrom root) :
    Key.isValid e.key = true := by
  obtain ⟨key, text⟩ := h.exists_key mem
  exact text ▸ key.isValid_text

/-- The listing of a tree, taken for a log, leaves what the log of the tree left, as far as there
was nothing at the root. -/
theorem lastWritten_listing (h : Represents t ways log) (rootless : lastWritten log [] = none)
    (way : List Step) :
    lastWritten ((t.entriesFrom root).map Entry.write) way = lastWritten log way := by
  have distinct := Entry.nodup_map_way (h.pairwise_entriesFrom h.root_way)
  apply Option.ext
  intro value
  constructor
  · intro left
    obtain ⟨w, hw, rfl⟩ := exists_write_of_lastWritten left
    rw [lastWritten_of_nodup distinct hw] at left
    obtain ⟨e, he, rfl⟩ := List.mem_map.1 hw
    exact (h.mem_entriesFrom_root_iff.1 he).2.2.trans left
  · intro left
    have nonempty : way ≠ [] := by
      rintro rfl
      rw [rootless] at left
      cases left
    have proper : ∀ s ∈ way, IsSegment s.segment := by
      obtain ⟨w, hw, rfl⟩ := exists_write_of_lastWritten left
      exact h.segments w.way ((h.mem_iff w.way).2 (.inr ⟨w, hw, List.prefix_rfl⟩))
    let e : Entry := ⟨Step.pathText way, value⟩
    have spelled : e.way = way := Step.ofText_pathText proper
    have listed : e ∈ t.entriesFrom root := by
      rw [h.mem_entriesFrom_root_iff, spelled]
      exact ⟨nonempty, rfl, left⟩
    have last := lastWritten_of_nodup distinct (List.mem_map_of_mem listed)
    rwa [Entry.write, spelled] at last

/-- Logs that leave the same make the same listing. -/
theorem entriesFrom_root_eq (h : Represents t ways log) (h' : Represents t' ways' log')
    (same : ∀ way, lastWritten log way = lastWritten log' way) :
    t.entriesFrom root = t'.entriesFrom root := by
  refine Entry.eq_of_pairwise_before (h.pairwise_entriesFrom h.root_way)
    (h'.pairwise_entriesFrom h'.root_way) ?_
  intro e
  rw [h.mem_entriesFrom_root_iff, h'.mem_entriesFrom_root_iff, same]

theorem mem_of_lastWritten_eq (h : Represents t ways log) (h' : Represents t' ways' log')
    (same : ∀ way, lastWritten log way = lastWritten log' way) {way : List Step}
    (hw : way ∈ ways) : way ∈ ways' := by
  rcases (h.mem_iff way).1 hw with top | ⟨w, hw, begins⟩
  · exact (h'.mem_iff way).2 (.inl top)
  · obtain ⟨value, left⟩ := exists_lastWritten hw
    obtain ⟨w', hw', ends⟩ := exists_write_of_lastWritten ((same w.way).symm.trans left)
    exact (h'.mem_iff way).2 (.inr ⟨w', hw', ends ▸ begins⟩)

/-- Logs that leave the same make equally many nodes. -/
theorem size_eq_of_lastWritten_eq (h : Represents t ways log) (h' : Represents t' ways' log')
    (same : ∀ way, lastWritten log way = lastWritten log' way) : t.size = t'.size := by
  have perm : ways.Perm ways' := by
    refine (List.perm_ext_iff_of_nodup h.nodup h'.nodup).2 fun way => ⟨?_, ?_⟩
    · exact h.mem_of_lastWritten_eq h' same
    · exact h'.mem_of_lastWritten_eq h fun way => (same way).symm
  rw [h.size_eq, h'.size_eq, perm.length_eq]

end Tree.Represents

namespace Tree

/-- The entries of the nodes that hold a text, in the order in which the nodes came about. -/
def valued (t : Tree) : List Entry := (List.range t.size).filterMap fun i => (t.node i).stored

/-- Every node that holds a text is listed, and no other, and each of them once. -/
theorem Charted.entriesFrom_root_perm {t : Tree} {ways : List (List Step)} (h : Charted t ways) :
    (t.entriesFrom root).Perm t.valued := by
  have distinct : t.valued.Nodup := by
    rw [List.nodup_iff_pairwise_ne]
    refine List.Pairwise.filterMap _ ?_ List.nodup_range
    rintro i j other e hi _ hj rfl
    obtain ⟨way, wi⟩ := h.exists_way (lt_size_of_stored hi)
    obtain ⟨way', wj⟩ := h.exists_way (lt_size_of_stored hj)
    rw [← h.way_eq_of_stored wi hi] at wi
    rw [← h.way_eq_of_stored wj hj] at wj
    exact other (h.index_unique wi wj)
  refine (List.perm_ext_iff_of_nodup
    (Entry.nodup_of_pairwise_before (h.pairwise_entriesFrom h.root_way)) distinct).2 ?_
  intro e
  rw [h.mem_entriesFrom_iff h.root_way, valued, List.mem_filterMap]
  constructor
  · rintro ⟨-, j, hj, stored⟩
    exact ⟨j, List.mem_range.2 (h.lt_size hj), stored⟩
  · rintro ⟨j, inside, stored⟩
    obtain ⟨way, hj⟩ := h.exists_way (List.mem_range.1 inside)
    exact ⟨List.nil_prefix, j, h.way_eq_of_stored hj stored ▸ hj, stored⟩

end Tree

end ResourceLookup
