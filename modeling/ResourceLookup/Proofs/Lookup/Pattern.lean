import Mathlib.Data.List.Infix
import ResourceLookup.Proofs.Lookup.Derivation
import ResourceLookup.Proofs.Tree.Chart

/-!
# Patterns

Steps are a pattern for queries. Each step takes one segment of a query, a tight one the next and a
loose one any later one, and it accepts this segment if it has the same text, if it is `?`, or if
it names a type from which the type of the segment descends.

A pattern is matched against a query without a look at any tree. `Derives.exists_matches` says
that a search arrives only at nodes whose ways match its query.
-/

namespace ResourceLookup

namespace Lookup

variable {l : Lookup} {query : List Text}

/-- A step with the given name accepts a segment at the end of a path. The choice says how. -/
def Accepts (l : Lookup) (path : List Text) (segment name : Text) : Choice → Prop
  | .exact => name = segment
  | .byType => Category.ofSegment name = .byType ∧
      ∃ type, l.typeOf? path segment = some type ∧ name ∈ type :: l.hierarchy.ancestry type
  | .single => name = singleMatch

/-- A step takes the segment of a query that a pick says, with its binding and by its choice. -/
structure Takes (l : Lookup) (query : List Text) (pick : Pick) (step : Step) : Prop where
  binding_eq : step.binding = pick.binding
  accepts : ∃ segment, query[pick.anchor - 1]? = some segment ∧
    l.Accepts (query.take pick.anchor) segment step.segment pick.choice

/-- Steps match a part of a query by picks, from where the first `consumed` segments are consumed to
where the first `finish` ones are. -/
inductive Matches (l : Lookup) (query : List Text) :
    Nat → List Pick → List Step → Nat → Prop
  | done {consumed : Nat} : Matches l query consumed [] [] consumed
  | step {consumed finish : Nat} {pick : Pick} {picks : List Pick} {step : Step}
      {steps : List Step} (allowed : pick.Allowed consumed query.length)
      (takes : l.Takes query pick step) (rest : Matches l query pick.anchor picks steps finish) :
      Matches l query consumed (pick :: picks) (step :: steps) finish

instance (l : Lookup) (path : List Text) (segment name : Text) :
    (choice : Choice) → Decidable (l.Accepts path segment name choice)
  | .exact => inferInstanceAs (Decidable (name = segment))
  | .byType => decidable_of_iff
      (Category.ofSegment name = .byType ∧ ∃ type ∈ (l.typeOf? path segment).toList,
        name ∈ type :: l.hierarchy.ancestry type) (by simp only [Accepts, Option.mem_toList])
  | .single => inferInstanceAs (Decidable (name = singleMatch))

theorem takes_iff {pick : Pick} {step : Step} :
    l.Takes query pick step ↔ step.binding = pick.binding ∧
      ∃ segment ∈ query[pick.anchor - 1]?.toList,
        l.Accepts (query.take pick.anchor) segment step.segment pick.choice := by
  simp only [Option.mem_toList]
  exact ⟨fun h => ⟨h.binding_eq, h.accepts⟩, fun h => ⟨h.1, h.2⟩⟩

instance (l : Lookup) (query : List Text) (pick : Pick) (step : Step) :
    Decidable (l.Takes query pick step) :=
  decidable_of_iff _ takes_iff.symm

/-- Whether steps match the rest of a query when the first `consumed` segments are consumed. -/
def canMatch (l : Lookup) (query : List Text) : Nat → List Step → Bool
  | consumed, [] => consumed == query.length
  | consumed, step :: steps => (Pick.all consumed query.length).any fun pick =>
      l.Takes query pick step && l.canMatch query pick.anchor steps

theorem canMatch_iff {consumed : Nat} {steps : List Step} :
    l.canMatch query consumed steps = true ↔
      ∃ picks, l.Matches query consumed picks steps query.length := by
  induction steps generalizing consumed with
  | nil =>
    rw [canMatch, beq_iff_eq]
    constructor
    · rintro rfl
      exact ⟨[], .done⟩
    · rintro ⟨picks, h⟩
      cases h
      rfl
  | cons step steps ih =>
    simp only [canMatch, List.any_eq_true, Bool.and_eq_true, decide_eq_true_eq, ih,
      Pick.mem_all_iff]
    constructor
    · rintro ⟨pick, allowed, takes, picks, rest⟩
      exact ⟨pick :: picks, .step allowed takes rest⟩
    · rintro ⟨picks, h⟩
      cases h with
      | step allowed takes rest => exact ⟨_, allowed, takes, _, rest⟩

/-- No beginning of the steps matches if none is found to. -/
theorem not_matches_of_canMatch {steps : List Step}
    (h : ∀ pre ∈ steps.inits, pre ≠ [] → l.canMatch query 0 pre = false) (pre : List Step)
    (picks : List Pick) (nonempty : pre ≠ []) (begins : pre <+: steps) :
    ¬ l.Matches query 0 picks pre query.length := by
  intro matched
  have found := canMatch_iff.2 ⟨picks, matched⟩
  rw [h pre ((List.mem_inits _ _).2 begins) nonempty] at found
  cases found

namespace Matches

variable {consumed middle finish : Nat} {picks more : List Pick} {steps others : List Step}

theorem append (h : l.Matches query consumed picks steps middle)
    (h' : l.Matches query middle more others finish) :
    l.Matches query consumed (picks ++ more) (steps ++ others) finish := by
  induction h with
  | done => exact h'
  | step allowed takes _ ih => exact .step allowed takes (ih h')

theorem singleton {pick : Pick} {step : Step} (allowed : pick.Allowed consumed query.length)
    (takes : l.Takes query pick step) :
    l.Matches query consumed [pick] [step] pick.anchor :=
  .step allowed takes .done

/-- Steps are bound as they are picked. -/
theorem map_binding (h : l.Matches query consumed picks steps finish) :
    steps.map (·.binding) = picks.map (·.binding) := by
  induction h with
  | done => rfl
  | step _ takes _ ih => rw [List.map_cons, List.map_cons, takes.binding_eq, ih]

/-- No steps match nothing. -/
theorem finish_eq_of_nil (h : l.Matches query consumed picks [] finish) : finish = consumed := by
  cases h
  rfl

/-- Whether steps match does not depend on the tree. -/
theorem of_tree {tree : Tree}
    (h : ({ l with tree } : Lookup).Matches query consumed picks steps finish) :
    l.Matches query consumed picks steps finish := by
  induction h with
  | done => exact .done
  | step allowed takes _ ih => exact .step allowed ⟨takes.binding_eq, takes.accepts⟩ ih

end Matches

section Chart

variable {ways : List (List Step)} {i child target : NodeIndex} {way : List Step}

/-- A pick leads to a child that takes the segment of the pick. -/
theorem exists_takes_of_follow? (h : l.tree.Charted ways) (hi : ways[i]? = some way)
    {pick : Pick} (follow : l.follow? query i pick = some child) :
    ∃ step, ways[child]? = some (way ++ [step]) ∧ l.Takes query pick step := by
  obtain ⟨binding, anchor, choice⟩ := pick
  obtain ⟨segment, taken, chosen⟩ := Option.bind_eq_some_iff.1 follow
  cases choice with
  | exact =>
    have slot := (h.get?_eq_some_iff hi Category.ofSegment_eq_singleMatch_iff.1).1 chosen
    exact ⟨⟨binding, segment⟩, slot.2, rfl, segment, taken, rfl⟩
  | byType =>
    rw [chosen?_byType] at chosen
    obtain ⟨type, recorded, nearest⟩ := Option.bind_eq_some_iff.1 chosen
    obtain ⟨name, listed, found⟩ := List.exists_of_findSome?_eq_some nearest
    have proper : Category.byType = .singleMatch → name = singleMatch := by simp
    have slot := (h.get?_eq_some_iff hi proper).1 found
    exact ⟨⟨binding, name⟩, slot.2, rfl, segment, taken, slot.1.symm, type, recorded, listed⟩
  | single =>
    have proper : Category.singleMatch = .singleMatch → singleMatch = singleMatch := fun _ => rfl
    have slot := (h.get?_eq_some_iff hi proper).1 chosen
    exact ⟨⟨binding, singleMatch⟩, slot.2, rfl, segment, taken, rfl⟩

/-- The way to the end of a derivation goes on by steps that match the rest of the query. -/
theorem Derives.exists_matches (h : l.tree.Charted ways) (hi : ways[i]? = some way)
    {consumed : Nat} {picks : List Pick} (derives : l.Derives query i consumed picks target) :
    ∃ steps, ways[target]? = some (way ++ steps) ∧
      l.Matches query consumed picks steps query.length := by
  induction derives generalizing way with
  | done => exact ⟨[], by simpa using hi, .done⟩
  | step allowed follow _ ih =>
    obtain ⟨step, hc, takes⟩ := exists_takes_of_follow? h hi follow
    obtain ⟨steps, ht, matched⟩ := ih hc
    exact ⟨step :: steps, by simpa using ht, .step allowed takes matched⟩

end Chart

end Lookup

end ResourceLookup
