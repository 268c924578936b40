import ResourceLookup.Proofs.Lookup.Choice
import ResourceLookup.Proofs.Tree.Consistency

/-!
# Literal queries

A literal key has tight delimiters only. As a query it is then cut exactly into the segments of
its steps, and a search that follows these steps never gets to another choice: the tightly bound
child for exactly the next segment comes before all others.
-/

namespace ResourceLookup

namespace Step

theorem loose_mem_text {s : Step} (h : s.binding = .loose) : '*' ∈ s.text := by
  rw [text, h]
  exact List.mem_cons_self

/-- The text of a way tells of every loose step. -/
theorem loose_mem_pathText {steps : List Step} {s : Step} (hs : s ∈ steps)
    (h : s.binding = .loose) : '*' ∈ pathText steps := by
  cases steps with
  | nil => cases hs
  | cons first rest =>
    rw [pathText_cons]
    rcases List.mem_cons.1 hs with rfl | hs
    · rw [h]
      exact List.mem_append_left _ (loose_mem_text h)
    · exact List.mem_append_right _ (List.mem_flatMap.2 ⟨s, hs, loose_mem_text h⟩)

theorem append_flatMap_text_of_tight (segment : Text) {steps : List Step}
    (tight : ∀ s ∈ steps, s.binding = .tight) :
    segment ++ steps.flatMap text =
      [Binding.tight.delimiter].intercalate (segment :: steps.map (·.segment)) := by
  induction steps generalizing segment with
  | nil => simp
  | cons s steps ih =>
    have rest := ih s.segment fun s hs => tight s (.tail _ hs)
    rw [List.map_cons, List.intercalate_cons_cons, ← rest, List.flatMap_cons, text,
      tight s (.head _)]
    simp

/-- Tight steps are written as their segments with tight delimiters between them. -/
theorem pathText_of_tight {steps : List Step} (tight : ∀ s ∈ steps, s.binding = .tight) :
    pathText steps = [Binding.tight.delimiter].intercalate (steps.map (·.segment)) := by
  cases steps with
  | nil => rfl
  | cons s steps =>
    rw [pathText_cons, tight s (.head _)]
    exact append_flatMap_text_of_tight s.segment fun s hs => tight s (.tail _ hs)

end Step

namespace Key

/-- Every step of a literal key is tight. -/
theorem binding_of_literal {k : Key} (literal : '*' ∉ k.text) :
    ∀ s ∈ k.steps, s.binding = .tight := by
  intro s hs
  cases h : s.binding with
  | tight => rfl
  | loose => exact absurd (k.pathText_steps ▸ Step.loose_mem_pathText hs h) literal

/-- The segments of a literal key are those of its steps. -/
theorem segments_of_literal {k : Key} (literal : '*' ∉ k.text) :
    k.segments = k.steps.map (·.segment) := by
  rw [segments, ← k.pathText_steps, Step.pathText_of_tight (binding_of_literal literal)]
  refine List.splitOn_intercalate _ ?_ (by simpa using k.steps_ne_nil)
  intro segment mem dot
  obtain ⟨s, hs, rfl⟩ := List.mem_map.1 mem
  have plain := ((k.isSegment_of_mem_steps s hs).plain _ dot).1
  simp [isDelimiter, Binding.delimiter] at plain

end Key

namespace Lookup

/-- The tightly bound child for exactly the next segment decides, if the search arrives below it. -/
theorem findFrom_of_exact (l : Lookup) {i child target : NodeIndex} {consumed rest : List Text}
    {segment : Text}
    (exact : (l.tree.node i).child? .tight (Category.ofSegment segment) segment = some child)
    (arrives : l.findFrom ⟨child, consumed ++ [segment], rest⟩ = some target) :
    l.findFrom ⟨i, consumed, segment :: rest⟩ = some target := by
  rw [findFrom_eq_choices l (by simp)]
  have first : l.chosen? ((l.tree.node i).children .tight) (consumed ++ [segment]) segment .exact =
      some child := exact
  simp only [Binding.all, Choice.all, Anchor.allowed_tight, Anchor.next, List.findSome?_cons,
    Anchor.consumed, List.nil_append, first, Option.bind_some]
  rw [Position.after, Anchor.consumed, List.nil_append, arrives]

/-- Where tight steps lead, their segments lead a search. -/
theorem findFrom_of_walk? (l : Lookup) {i target : NodeIndex} {consumed : List Text}
    {steps : List Step} (tight : ∀ s ∈ steps, s.binding = .tight)
    (walk : l.tree.walk? i steps = some target) :
    l.findFrom ⟨i, consumed, steps.map (·.segment)⟩ = some target := by
  induction steps generalizing i consumed with
  | nil =>
    obtain rfl := Option.some.inj walk
    exact findFrom_of_rest_eq_nil l rfl
  | cons step steps ih =>
    rw [Tree.walk?, Option.bind_eq_some_iff] at walk
    obtain ⟨child, exact, walk⟩ := walk
    rw [tight step (.head _)] at exact
    exact l.findFrom_of_exact exact (ih (fun s hs => tight s (.tail _ hs)) walk)

end Lookup

end ResourceLookup
