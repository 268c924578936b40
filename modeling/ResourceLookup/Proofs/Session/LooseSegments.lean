import ResourceLookup.Proofs.Lookup.Pattern
import ResourceLookup.Proofs.Session.Registrations

/-!
# Loose delimiters in queries

A query is cut at its tight delimiters only, so that a loose one ends up inside of a segment. No
node is called by such a segment and nobody is registered at a path with one. All the same it can be
taken: by the child for `?`, which takes every segment, and, if it reads as a type, by another type
that the application lets stand in for it. `loose_segment_taken_by_other_name` says that there is no
third way, so that a search passes over such a segment by a loose step or takes it in one of these
two.
-/

namespace ResourceLookup

theorem mem_intercalate_singleton_iff {α : Type} {a separator : α} (other : a ≠ separator)
    {pieces : List (List α)} :
    a ∈ [separator].intercalate pieces ↔ ∃ piece ∈ pieces, a ∈ piece := by
  induction pieces with
  | nil => simp
  | cons piece pieces ih =>
    cases pieces with
    | nil => simp
    | cons next pieces =>
      rw [List.intercalate_cons_cons, List.mem_append, List.mem_append, List.mem_singleton, ih,
        or_iff_left other, List.exists_mem_cons_iff (a := piece)]

theorem IsSegment.loose_not_mem {t : Text} (h : IsSegment t) : '*' ∉ t := by
  intro loose
  have plain := (h.plain _ loose).1
  simp [isDelimiter] at plain

/-- No loose delimiter is a part of a registered name. -/
theorem loose_not_mem_of_isValidPath {path : Text} (h : isValidPath path = true) :
    '*' ∉ path := by
  intro loose
  have joined : ['.'].intercalate (path.splitOn '.') = path := List.intercalate_splitOn _
  rw [← joined, mem_intercalate_singleton_iff (by decide)] at loose
  obtain ⟨name, listed, loose⟩ := loose
  exact (isSegment_of_isValidName (isValidPath_iff.1 h name listed)).loose_not_mem loose

/-- No type is on record at a path with a loose delimiter. -/
theorem Registry.Sound.typeAt?_of_loose {r : Registry} {next : ObjectId} (h : r.Sound next)
    (alive : ObjectId → Bool) {path : Text} (loose : '*' ∈ path) :
    r.typeAt? alive path = none := by
  rw [typeAt?, Option.map_eq_none_iff, Option.eq_none_iff_forall_ne_some]
  intro owner found
  rw [ownerOf?, Option.filter_eq_some_iff] at found
  exact loose_not_mem_of_isValidPath (h.owners path owner found.1) loose

namespace Lookup

variable {l : Lookup} {query : List Text} {consumed finish place : Nat} {picks : List Pick}
variable {steps : List Step} {pick : Pick} {step : Step} {segment : Text}

/-- A node takes a segment although it is called by another name: it stands for any segment, or for
another type that stands in for the one the segment reads as. -/
def TakesOther (l : Lookup) (segment name : Text) : Prop :=
  name = singleMatch ∨ Category.ofSegment segment = .byType ∧ Category.ofSegment name = .byType ∧
    name ≠ segment ∧ name ∈ l.hierarchy.ancestry segment

/-- Picks pass over a place of a query: the first one that goes beyond it is loose. -/
def PassesOver (picks : List Pick) (place : Nat) : Prop :=
  ∃ before pick after, picks = before ++ pick :: after ∧ pick.binding = .loose ∧
    (∀ earlier ∈ before, earlier.anchor < place) ∧ place < pick.anchor

/-- Where nodes and registered paths have no loose delimiter, a segment with one is taken under
another name. -/
theorem Takes.other_of_loose (h : l.Takes query pick step)
    (untyped : ∀ path, '*' ∈ path → l.typeAt? path = none) (proper : '*' ∉ step.segment)
    (counted : 0 < pick.anchor) (taken : query[pick.anchor - 1]? = some segment)
    (loose : '*' ∈ segment) : l.TakesOther segment step.segment := by
  obtain ⟨-, segment', taken', accepts⟩ := h
  obtain rfl := Option.some.inj (taken.symm.trans taken')
  have other : step.segment ≠ segment := fun same => proper (same ▸ loose)
  have consumed : segment ∈ query.take pick.anchor := by
    apply List.mem_of_getElem? (i := pick.anchor - 1)
    rw [List.getElem?_take_of_lt (by omega), taken]
  have nobody : l.typeAt? (path (query.take pick.anchor)) = none := by
    apply untyped
    exact (mem_intercalate_singleton_iff (by decide)).2 ⟨segment, consumed, loose⟩
  cases choice : pick.choice with
  | exact =>
    rw [choice] at accepts
    exact absurd accepts other
  | byType =>
    rw [choice] at accepts
    obtain ⟨byType, type, recorded, listed⟩ := accepts
    rw [typeOf?] at recorded
    cases category : Category.ofSegment segment with
    | byName =>
      simp only [category, nobody] at recorded
      cases recorded
    | byType =>
      simp only [category] at recorded
      obtain rfl := Option.some.inj recorded
      exact .inr ⟨category, byType, other, (List.mem_cons.1 listed).resolve_left other⟩
    | singleMatch =>
      simp only [category] at recorded
      cases recorded
  | single =>
    rw [choice] at accepts
    exact .inl accepts

namespace Matches

theorem takes_of_mem_zip (h : l.Matches query consumed picks steps finish)
    (mem : (pick, step) ∈ picks.zip steps) : l.Takes query pick step ∧ 0 < pick.anchor := by
  induction h with
  | done => simp at mem
  | step allowed takes _ ih =>
    rw [List.zip_cons_cons, List.mem_cons] at mem
    obtain same | mem := mem
    · obtain ⟨rfl, rfl⟩ := Prod.mk.inj same
      exact ⟨takes, Nat.zero_lt_of_lt allowed.consumed_lt⟩
    · exact ih mem

/-- Every place of the query is taken or passed over. -/
theorem exists_anchor_or_passesOver (h : l.Matches query consumed picks steps finish)
    (beyond : consumed < place) (within : place ≤ finish) :
    (∃ pick step, (pick, step) ∈ picks.zip steps ∧ pick.anchor = place) ∨
      PassesOver picks place := by
  induction h with
  | done => omega
  | @step consumed finish pick picks step steps allowed _ _ ih =>
    obtain earlier | same | later := Nat.lt_trichotomy pick.anchor place
    · obtain ⟨pick', step', mem, anchor⟩ | ⟨before, loose, after, rfl, bound, passed, ahead⟩ :=
        ih earlier within
      · exact .inl ⟨pick', step', List.mem_cons_of_mem _ mem, anchor⟩
      · exact .inr ⟨pick :: before, loose, after, rfl, bound,
          List.forall_mem_cons.2 ⟨earlier, passed⟩, ahead⟩
    · exact .inl ⟨pick, step, List.mem_cons_self, same⟩
    · have bound : pick.binding = .loose := by
        cases tight : pick.binding with
        | loose => rfl
        | tight =>
          simp only [Pick.Allowed, tight] at allowed
          omega
      exact .inr ⟨[], pick, picks, rfl, bound, by simp, later⟩

/-- The last segment of a query cannot be passed over. -/
theorem exists_last (h : l.Matches query consumed picks steps query.length)
    (unfinished : consumed < query.length) :
    ∃ pick step, steps.getLast? = some step ∧ (pick, step) ∈ picks.zip steps ∧
      pick.anchor = query.length := by
  generalize finishes : query.length = finish at h unfinished
  induction h with
  | done => omega
  | @step consumed finish pick picks step steps allowed takes rest ih =>
    cases rest with
    | done => exact ⟨pick, step, rfl, List.mem_cons_self, rfl⟩
    | @step _ _ pick' picks' step' steps' allowed' takes' rest' =>
      have more : pick.anchor < finish := by
        have := allowed'.consumed_lt
        have := allowed'.anchor_le
        omega
      obtain ⟨last, lastStep, ends, mem, anchor⟩ := ih finishes more
      refine ⟨last, lastStep, ?_, List.mem_cons_of_mem _ mem, anchor⟩
      rwa [List.getLast?_cons_cons]

end Matches

/-- What a search finds in a charted tree, it finds by steps that match the query, and under another
name where a segment has a loose delimiter. -/
theorem exists_matches_of_find {key : Key} {found : NodeIndex} {ways : List (List Step)}
    (chart : l.tree.Charted ways) (untyped : ∀ path, '*' ∈ path → l.typeAt? path = none)
    (arrived : l.find key = some found) :
    ∃ picks, l.LeastDerivation key.segments Tree.root 0 picks found ∧
      l.Matches key.segments 0 picks (l.tree.stepsAt found) key.segments.length ∧
      ∀ pick step, (pick, step) ∈ picks.zip (l.tree.stepsAt found) → ∀ segment,
        key.segments[pick.anchor - 1]? = some segment → '*' ∈ segment →
          l.TakesOther segment step.segment := by
  obtain ⟨picks, least⟩ := exists_least_of_find arrived
  obtain ⟨steps, hf, matched⟩ := least.1.exists_matches chart chart.root_way
  rw [List.nil_append] at hf
  rw [chart.stepsAt_eq hf]
  refine ⟨picks, least, matched, fun pick step mem segment taken loose => ?_⟩
  obtain ⟨takes, counted⟩ := matched.takes_of_mem_zip mem
  -- No step of the tree has a loose delimiter in its segment, for the steps come from keys.
  have proper := (chart.segments steps (List.mem_of_getElem? hf) step
    (List.of_mem_zip mem).2).loose_not_mem
  exact takes.other_of_loose untyped proper counted taken loose

end Lookup

namespace Store

theorem resolve_of_find_eq_none {s : Store} {objects : Objects} {raw : Text} {key : Key}
    (read : Key.parse raw = .ok key) (lost : (s.lookup objects).find key = none) :
    s.resolve objects raw = .ok none := by
  have nothing : s.find objects key = none := by
    show ((s.lookup objects).find key).bind _ = none
    rw [lost]
    rfl
  rw [resolve, read, ← nothing]
  rfl

end Store

namespace Session

open Lookup

/-- A search that succeeds takes a segment with a loose delimiter only by a node that has another
name, `?` or that of a type which stands in for the type that the segment reads as; else it passes
over the segment by a loose step. A query that ends in such a segment is told to have no value
unless the node that is found has such a name. -/
theorem loose_segment_taken_by_other_name (hierarchy : Hierarchy) (loader : Loader)
    (operations : List Operation) {raw : Text} {key : Key} (read : Key.parse raw = .ok key) :
    let s := (start hierarchy loader).run operations
    let l := s.store.lookup s.objects
    (∀ found, l.find key = some found → ∃ picks,
      l.LeastDerivation key.segments Tree.root 0 picks found ∧
      picks.map (·.binding) = (l.tree.stepsAt found).map (·.binding) ∧
      ∀ place segment, key.segments[place]? = some segment → '*' ∈ segment →
        (∀ pick step, (pick, step) ∈ picks.zip (l.tree.stepsAt found) → pick.anchor = place + 1 →
          l.TakesOther segment step.segment) ∧
        ((∃ pick step, (pick, step) ∈ picks.zip (l.tree.stepsAt found) ∧
          pick.anchor = place + 1) ∨ PassesOver picks (place + 1))) ∧
    (∀ segment, key.segments.getLast? = some segment → '*' ∈ segment →
      s.store.resolve s.objects raw = .ok none ∨ ∃ found step, l.find key = some found ∧
        (l.tree.stepsAt found).getLast? = some step ∧ l.TakesOther segment step.segment) := by
  intro s l
  obtain ⟨ways, represents⟩ := (grown_run hierarchy loader operations).represents
  have chart : l.tree.Charted ways := represents.toCharted
  have sound : s.Sound := sound_run (sound_start hierarchy loader) operations
  have untyped (path : Text) (loose : '*' ∈ path) : l.typeAt? path = none :=
    sound.typeAt?_of_loose _ loose
  constructor
  · intro found arrived
    obtain ⟨picks, least, matched, others⟩ := exists_matches_of_find chart untyped arrived
    refine ⟨picks, least, matched.map_binding.symm, fun place segment cut loose => ⟨?_, ?_⟩⟩
    · intro pick step mem anchor
      exact others pick step mem segment (by rw [anchor]; exact cut) loose
    · have within := (List.getElem?_eq_some_iff.1 cut).1
      exact matched.exists_anchor_or_passesOver (Nat.succ_pos place) within
  · intro segment last loose
    cases arrived : l.find key with
    | none => exact .inl (Store.resolve_of_find_eq_none read arrived)
    | some found =>
      right
      obtain ⟨picks, -, matched, others⟩ := exists_matches_of_find chart untyped arrived
      have unfinished : 0 < key.segments.length := List.length_pos_iff.2 key.segments_ne_nil
      obtain ⟨pick, step, ends, mem, anchor⟩ := matched.exists_last unfinished
      refine ⟨found, step, rfl, ends, others pick step mem segment ?_ loose⟩
      rwa [anchor, ← List.getLast?_eq_getElem?]

/-- One segment is taken by a declared superclass of the type that it reads as, one is passed over,
and the last one is taken by `?`. -/
theorem loose_segment_taken_below_component :
    let table := TypeTable.empty.declare "Panel*x".toList (some "Component".toList) []
    let operations : List Operation := [.insert "Component*?".toList (.single ['1'])]
    let s := (start table ⟨.standard, ⟨∅, []⟩⟩).run operations
    let l := s.store.lookup s.objects
    let key : Key := ⟨"Panel*x.b*c.d*e".toList, by decide +kernel, by decide +kernel⟩
    key.segments = ["Panel*x".toList, "b*c".toList, "d*e".toList] ∧
      (∃ picks, l.LeastDerivation key.segments Tree.root 0 picks 2 ∧
        (∀ pick step, (pick, step) ∈ picks.zip (l.tree.stepsAt 2) → pick.anchor = 1 →
          l.TakesOther "Panel*x".toList step.segment) ∧
        ((∃ pick step, (pick, step) ∈ picks.zip (l.tree.stepsAt 2) ∧ pick.anchor = 2) ∨
          PassesOver picks 2)) ∧
      ∃ found step, l.find key = some found ∧ (l.tree.stepsAt found).getLast? = some step ∧
        l.TakesOther "d*e".toList step.segment := by
  intro table operations s l key
  have segments : key.segments = ["Panel*x".toList, "b*c".toList, "d*e".toList] := by
    decide +kernel
  have arrived : l.find key = some 2 := by decide +kernel
  obtain ⟨taken, last⟩ := loose_segment_taken_by_other_name table ⟨.standard, ⟨∅, []⟩⟩ operations
    (Key.parse_text key)
  obtain ⟨picks, least, -, places⟩ := taken 2 arrived
  have first := places 0 "Panel*x".toList (by rw [segments]; rfl) (by simp)
  have second := places 1 "b*c".toList (by rw [segments]; rfl) (by simp)
  refine ⟨segments, ⟨picks, least, first.1, second.2⟩, ?_⟩
  refine (last "d*e".toList (by rw [segments]; rfl) (by simp)).resolve_left ?_
  have found : s.store.resolve s.objects key.text = .ok (some (.single ['1'])) := by decide +kernel
  intro nothing
  have differ := found.symm.trans nothing
  cases differ

/-- A loose delimiter in a query does not keep it from matching: `?` takes every segment, and a type
that is declared to stand in for another takes the name of the other. -/
theorem loose_segment_matches :
    let table := TypeTable.empty.declare "Panel*x".toList (some "Component".toList) []
    let s := (start table ⟨.standard, ⟨∅, []⟩⟩).run
      [.insert "?".toList (.single ['1']), .insert "Component.b".toList (.single ['2'])]
    let l := s.store.lookup s.objects
    let key : Key := ⟨"a*b".toList, by decide +kernel, by decide +kernel⟩
    let other : Key := ⟨"Panel*x.b".toList, by decide +kernel, by decide +kernel⟩
    key.segments = ["a*b".toList] ∧ l.Derives key.segments Tree.root 0 [⟨.tight, 1, .single⟩] 1 ∧
      s.store.resolve s.objects key.text = .ok (some (.single ['1'])) ∧
      other.segments = ["Panel*x".toList, "b".toList] ∧
      l.Derives other.segments Tree.root 0 [⟨.tight, 1, .byType⟩, ⟨.tight, 2, .exact⟩] 3 ∧
      s.store.resolve s.objects other.text = .ok (some (.single ['2'])) := by
  intro table s l key other
  refine ⟨?_, ?_, ?_, ?_, ?_, ?_⟩ <;> decide +kernel

end Session

end ResourceLookup
