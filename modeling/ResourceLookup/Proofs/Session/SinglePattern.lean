import ResourceLookup.Proofs.Lookup.Placement
import ResourceLookup.Proofs.Session.Dominance
import ResourceLookup.Proofs.Tree.Listing

/-!
# A single pattern

The tree of a single pattern is a chain: a node for each beginning of the pattern, of which only
the last one holds a text. A search stops at the first node where it has consumed the whole query,
and there are queries that nodes in the middle of the chain fit as well. Yet a search does not stop
there if it can get to the end of the chain: by `LeastDerivation.reaches_end` the earliest picks
always leave room for the rest of the pattern. This rests on the exchange in `Matches.of_earlier`.
-/

namespace ResourceLookup

namespace Tree

/-- A tree that has a node for each beginning of one pattern and no other nodes. -/
structure Chain (t : Tree) (ways : List (List Step)) (pattern : List Step) : Prop
    extends Charted t ways where
  mem_iff : ∀ way, way ∈ ways ↔ way <+: pattern

namespace Chain

variable {t : Tree} {ways : List (List Step)} {pattern way steps : List Step} {child : NodeIndex}
variable {step : Step}

theorem exists_child (h : Chain t ways pattern) (cut : pattern = way ++ step :: steps) :
    ∃ child : NodeIndex, ways[child]? = some (way ++ [step]) :=
  List.getElem?_of_mem ((h.mem_iff _).2 ⟨steps, by simp [cut]⟩)

/-- No step leads on but the next one of the pattern. -/
theorem step_eq (h : Chain t ways pattern) (cut : pattern = way ++ step :: steps) {other : Step}
    (hc : ways[child]? = some (way ++ [other])) : other = step := by
  have begins := (h.mem_iff _).1 (List.mem_of_getElem? hc)
  rw [cut, List.prefix_append_right_inj] at begins
  simpa using begins

end Chain

namespace Represents

variable {t : Tree} {ways : List (List Step)} {log : List Write} {key : Key} {value : Text}

/-- Where a single entry is listed nothing else has been left. -/
theorem lastWritten_of_single (h : Represents t ways log) (rootless : lastWritten log [] = none)
    (single : t.entriesFrom root = [⟨key.text, value⟩]) (way : List Step) :
    lastWritten log way = if way = key.steps then some value else none := by
  rw [← h.lastWritten_listing rootless, single]
  show lastWritten ([] ++ [⟨key.steps, value⟩]) way = _
  simp only [lastWritten_concat, lastWritten_nil, eq_comm]

/-- Where a single entry is listed the tree is the chain of its key. -/
theorem chain_of_single (h : Represents t ways log) (rootless : lastWritten log [] = none)
    (single : t.entriesFrom root = [⟨key.text, value⟩]) : Chain t ways key.steps where
  toCharted := h.toCharted
  mem_iff way := by
    have left := h.lastWritten_of_single rootless single
    rw [h.mem_iff]
    constructor
    · rintro (rfl | ⟨w, hw, begins⟩)
      · exact List.nil_prefix
      · obtain ⟨last, written⟩ := exists_lastWritten hw
        rw [left, Option.ite_none_right_eq_some] at written
        exact written.1 ▸ begins
    · intro begins
      have written : lastWritten log key.steps = some value :=
        (left key.steps).trans (if_pos rfl)
      obtain ⟨w, hw, same⟩ := exists_write_of_lastWritten written
      exact .inr ⟨w, hw, same ▸ begins⟩

end Represents

end Tree

namespace Lookup

variable {l : Lookup} {query : List Text} {ways : List (List Step)} {i child found : NodeIndex}
variable {pattern way steps : List Step} {consumed : Nat} {picks others : List Pick}

/-- What a function gives on an element is found if it gives nothing else on any. -/
theorem findSome?_eq_some_of_unique {α β : Type} {xs : List α} {f : α → Option β} {x : α} {y : β}
    (listed : x ∈ xs) (value : f x = some y) (unique : ∀ x' y', f x' = some y' → y' = y) :
    xs.findSome? f = some y := by
  cases found : xs.findSome? f with
  | none =>
    rw [List.findSome?_eq_none_iff.1 found x listed] at value
    cases value
  | some y' =>
    obtain ⟨x', -, value'⟩ := List.exists_of_findSome?_eq_some found
    rw [unique x' y' value']

/-- In a chain a pick leads to the next node if the next step takes the segment of the pick. -/
theorem follow?_of_takes (h : l.tree.Chain ways pattern) {step : Step}
    (cut : pattern = way ++ step :: steps) (hi : ways[i]? = some way)
    (hc : ways[child]? = some (way ++ [step])) {pick : Pick} (takes : l.Takes query pick step) :
    l.follow? query i pick = some child := by
  obtain ⟨binding, anchor, choice⟩ := pick
  obtain ⟨stepBinding, name⟩ := step
  obtain ⟨rfl, segment, taken, accepts⟩ := takes
  refine Option.bind_eq_some_iff.2 ⟨segment, taken, ?_⟩
  cases choice with
  | exact =>
    obtain rfl : name = segment := accepts
    exact (h.get?_eq_some_iff hi Category.ofSegment_eq_singleMatch_iff.1).2 ⟨rfl, hc⟩
  | byType =>
    obtain ⟨category, type, recorded, listed⟩ := accepts
    rw [chosen?_byType, Option.bind_eq_some_iff]
    refine ⟨type, recorded, ?_⟩
    have slot {other : Text} {child' : NodeIndex} :
        ((l.tree.node i).children stepBinding).get? .byType other = some child' ↔
          .byType = Category.ofSegment other ∧
            ways[child']? = some (way ++ [⟨stepBinding, other⟩]) :=
      h.get?_eq_some_iff hi (by simp)
    refine findSome?_eq_some_of_unique listed (slot.2 ⟨category.symm, hc⟩) ?_
    intro other child' selected
    have hc' := (slot.1 selected).2
    exact h.index_unique (h.step_eq cut hc' ▸ hc') hc
  | single =>
    obtain rfl : name = singleMatch := accepts
    exact (h.get?_eq_some_iff hi fun _ => rfl).2 ⟨rfl, hc⟩

/-- In a chain the picks by which the rest of the pattern matches a query are a derivation. -/
theorem Matches.derives {finish : Nat} (h : l.tree.Chain ways pattern)
    (matched : l.Matches query consumed picks steps finish) (ends : finish = query.length)
    (cut : pattern = way ++ steps) (hi : ways[i]? = some way) :
    ∃ target, l.Derives query i consumed picks target := by
  induction matched generalizing way i with
  | done =>
    subst ends
    exact ⟨i, .done⟩
  | @step consumed finish pick picks step steps allowed takes rest ih =>
    obtain ⟨child, hc⟩ := h.exists_child cut
    obtain ⟨target, derives⟩ := ih ends (cut.trans (List.append_cons ..)) hc
    exact ⟨target, .step allowed (follow?_of_takes h cut hi hc takes) derives⟩

/-- If the rest of a chain matches what is left of a query, the least derivation leads to the end.
Its first pick takes no later segment than the match does, so that the steps behind it match from
there on as well. The induction is on the steps. -/
theorem LeastDerivation.reaches_end (h : l.tree.Chain ways pattern)
    (cut : pattern = way ++ steps) (hi : ways[i]? = some way)
    (least : l.LeastDerivation query i consumed picks found)
    (matched : l.Matches query consumed others steps query.length) :
    ways[found]? = some pattern := by
  induction steps generalizing way i consumed picks others with
  | nil =>
    obtain rfl := matched.finish_eq_of_nil
    obtain ⟨-, rfl⟩ := least.1.eq_nil
    simpa [cut] using hi
  | cons step steps ih =>
    obtain ⟨target, derives⟩ := matched.derives h rfl cut hi
    cases matched with
    | step allowed takes rest =>
      rename_i other others
      have unfinished : consumed < query.length :=
        Nat.lt_of_lt_of_le allowed.consumed_lt allowed.anchor_le
      obtain ⟨pick, picks, child, rfl, allowed', follow, rest'⟩ := least.1.cases_pick unfinished
      obtain ⟨first, hc, takes'⟩ := exists_takes_of_follow? h.toCharted hi follow
      obtain rfl : first = step := h.step_eq cut hc
      have cut' : pattern = way ++ [first] ++ steps := cut.trans (List.append_cons ..)
      obtain ⟨begun, hf, part⟩ := rest'.exists_matches h.toCharted hc
      have begins : begun <+: steps := by
        have listed := (h.mem_iff _).1 (List.mem_of_getElem? hf)
        rwa [cut', List.prefix_append_right_inj] at listed
      have earlier : pick.anchor ≤ other.anchor := by
        obtain rfl | before := least.head derives
        · exact Nat.le_refl _
        · have bound : pick.binding = other.binding :=
            takes'.binding_eq.symm.trans takes.binding_eq
          simp only [Pick.Before, bound, Nat.lt_irrefl, false_or, true_and] at before
          omega
      obtain ⟨others', matched'⟩ := rest.of_earlier earlier begins part
      exact ih cut' hc (least.tail allowed' follow) matched'

/-- What a search finds is on the chart. -/
theorem exists_way_of_find {key : Key} (h : l.tree.Charted ways)
    (arrived : l.find key = some found) : ∃ way, ways[found]? = some way := by
  obtain ⟨picks, least⟩ := exists_least_of_find arrived
  obtain ⟨steps, hf, -⟩ := least.1.exists_matches h h.root_way
  exact ⟨steps, hf⟩

/-- A search in a chain finds the end of it if and only if the pattern can be placed in the
query. -/
theorem find_chain_iff {key : Key} (h : l.tree.Chain ways pattern) :
    (∃ i, l.find key = some i ∧ ways[i]? = some pattern) ↔
      ∃ places, l.Placed key.segments 0 pattern places := by
  rw [exists_placed_iff]
  constructor
  · rintro ⟨i, arrived, hi⟩
    obtain ⟨picks, least⟩ := exists_least_of_find arrived
    obtain ⟨steps, hi', matched⟩ := least.1.exists_matches h.toCharted h.root_way
    obtain rfl : pattern = steps := Option.some.inj (hi.symm.trans hi')
    exact ⟨picks, matched⟩
  · rintro ⟨picks, matched⟩
    have cut : pattern = [] ++ pattern := rfl
    obtain ⟨target, derives⟩ := matched.derives h rfl cut h.root_way
    obtain ⟨found, arrived⟩ := exists_find_of_derives derives
    obtain ⟨selected, least⟩ := exists_least_of_find arrived
    exact ⟨found, arrived, least.reaches_end h cut h.root_way matched⟩

end Lookup

namespace Session

/-- A store of a single resource. A query resolves to this resource if the steps of its key can be
placed in the query, and to nothing if they cannot, whatever is registered and whichever types
there are. -/
theorem resolve_single_pattern (hierarchy : Hierarchy) (loader : Loader)
    (operations : List Operation) (registry : Registry) (types : Hierarchy) (objects : Objects)
    {pattern : Key} {stored : Text} (nonempty : stored ≠ [])
    (single : ((start hierarchy loader).run operations).store.tree.entriesFrom Tree.root =
      [⟨pattern.text, stored⟩])
    {raw : Text} {query : Key} (read : Key.parse raw = .ok query) :
    let s : Store := ⟨((start hierarchy loader).run operations).store.tree, registry, types⟩
    let l := s.lookup objects
    ∃ value, Value.ofStored? stored = some value ∧
      (s.resolve objects raw = .ok (some value) ↔
        ∃ places, l.Placed query.segments 0 pattern.steps places) ∧
      ((¬ ∃ places, l.Placed query.segments 0 pattern.steps places) →
        s.resolve objects raw = .ok none) := by
  intro s l
  obtain ⟨ways, represents⟩ := (grown_run hierarchy loader operations).represents
  have rootless := Journal.lastWritten_writes_nil ((start hierarchy loader).journal operations)
  have left := represents.lastWritten_of_single rootless single
  have chain : l.tree.Chain ways pattern.steps := represents.chain_of_single rootless single
  obtain ⟨value, present⟩ := Option.ne_none_iff_exists'.1
    (mt Value.ofStored?_eq_none_iff.1 nonempty)
  have placed : (∃ i, l.find query = some i ∧ ways[i]? = some pattern.steps) ↔
      ∃ places, l.Placed query.segments 0 pattern.steps places :=
    Lookup.find_chain_iff chain
  have resolved : s.resolve objects raw =
      .ok ((l.find query).bind fun i => (l.tree.node i).data.bind Value.ofStored?) := by
    rw [Store.resolve, read]
    rfl
  have data {i : NodeIndex} {way : List Step} (hi : ways[i]? = some way) :
      (l.tree.node i).data = if way = pattern.steps then some stored else none :=
    (represents.data_eq hi).trans (left way)
  have hit : (∃ places, l.Placed query.segments 0 pattern.steps places) →
      s.resolve objects raw = .ok (some value) := by
    intro places
    obtain ⟨i, arrived, hi⟩ := placed.2 places
    rw [resolved, arrived, Option.bind_some, data hi, if_pos rfl, Option.bind_some, present]
  have miss : (¬ ∃ places, l.Placed query.segments 0 pattern.steps places) →
      s.resolve objects raw = .ok none := by
    intro unplaced
    rw [resolved]
    cases arrived : l.find query with
    | none => rfl
    | some i =>
      obtain ⟨way, hi⟩ := Lookup.exists_way_of_find chain.toCharted arrived
      have short : way ≠ pattern.steps := by
        rintro rfl
        exact unplaced (placed.1 ⟨i, arrived, hi⟩)
      rw [Option.bind_some, data hi, if_neg short, Option.bind_none]
  refine ⟨value, present, ⟨?_, hit⟩, miss⟩
  intro same
  by_contra unplaced
  rw [miss unplaced] at same
  cases same

/-- The first step of the pattern alone fits the query at its last segment, by the very name. The
pattern is found nevertheless, with its first step at an object of the type. -/
theorem resolve_single_pattern_beyond_prefix :
    let operations : List Operation :=
      [.insert "*Panel*?".toList (.single ['1']), .create "Panel".toList,
        .register "app.x".toList 0]
    let s := (start TypeTable.empty ⟨.standard, ⟨∅, []⟩⟩).run operations
    (s.store.lookup s.objects).Placed ["app".toList, "x".toList, "Panel".toList] 0
        [⟨.loose, "Panel".toList⟩] [3] ∧
      s.store.resolve s.objects "app.x.Panel".toList = .ok (some (.single ['1'])) := by
  intro operations s
  have read := Key.parse_text ⟨"app.x.Panel".toList, by decide +kernel, by decide +kernel⟩
  let pattern : Key := ⟨"*Panel*?".toList, by decide +kernel, by decide +kernel⟩
  have single : s.store.tree.entriesFrom Tree.root = [⟨pattern.text, ['1']⟩] := by decide +kernel
  obtain ⟨value, present, found, -⟩ :=
    resolve_single_pattern TypeTable.empty ⟨.standard, ⟨∅, []⟩⟩ operations s.store.registry
      s.store.hierarchy s.objects (by decide) single read
  obtain rfl : .single ['1'] = value := Option.some.inj (Eq.trans (by decide) present)
  exact ⟨by decide +kernel, found.2 ⟨[2, 3], by decide +kernel⟩⟩

end Session

end ResourceLookup
