import Mathlib.Data.List.Induction
import ResourceLookup.Proofs.Tree.Chart

/-!
# Growth

A tree grows by storing texts under keys, each below a node that is there already. What it holds
in the end is told by the log of its writes alone: there is one node for each beginning of a
written way, and a node holds what was written last at its way. `Grown.represents` says so for
every order of writes and every choice of starting nodes.
-/

namespace ResourceLookup

/-- A text stored at the end of a way from the root. -/
structure Write where
  way : List Step
  value : Text
deriving DecidableEq, Repr

/-- What a log of writes left at a way. -/
def lastWritten (log : List Write) (way : List Step) : Option Text :=
  log.foldl (fun last w => if w.way = way then some w.value else last) none

@[simp] theorem lastWritten_nil (way : List Step) : lastWritten [] way = none := rfl

@[simp] theorem lastWritten_concat (log : List Write) (w : Write) (way : List Step) :
    lastWritten (log ++ [w]) way = if w.way = way then some w.value else lastWritten log way := by
  simp [lastWritten]

/-- Where something was left, something was written. -/
theorem exists_write_of_lastWritten {log : List Write} {way : List Step} {value : Text}
    (h : lastWritten log way = some value) : ∃ w ∈ log, w.way = way := by
  induction log using List.reverseRecOn with
  | nil => cases h
  | append_singleton log w ih =>
    rw [lastWritten_concat] at h
    split at h
    · exact ⟨w, by simp, ‹_›⟩
    · obtain ⟨earlier, hw, same⟩ := ih h
      exact ⟨earlier, List.mem_append_left _ hw, same⟩

/-- Where something was written, something is left. -/
theorem exists_lastWritten {log : List Write} {w : Write} (h : w ∈ log) :
    ∃ value, lastWritten log w.way = some value := by
  induction log using List.reverseRecOn with
  | nil => cases h
  | append_singleton log last ih =>
    rw [lastWritten_concat]
    split
    · exact ⟨_, rfl⟩
    · rcases List.mem_append.1 h with h | h
      · exact ih h
      · exact absurd (congrArg Write.way (List.mem_singleton.1 h).symm) ‹_›

/-- Where no way was written twice, each has its own text. -/
theorem lastWritten_of_nodup {log : List Write} (distinct : (log.map (·.way)).Nodup) {w : Write}
    (h : w ∈ log) : lastWritten log w.way = some w.value := by
  induction log using List.reverseRecOn with
  | nil => cases h
  | append_singleton log last ih =>
    rw [List.map_append, List.nodup_append] at distinct
    obtain ⟨earlier, -, apart⟩ := distinct
    rw [lastWritten_concat]
    rcases List.mem_append.1 h with h | h
    · have other : last.way ≠ w.way := fun same =>
        apart _ (List.mem_map_of_mem h) _ (by simp) same.symm
      rw [if_neg other]
      exact ih earlier h
    · obtain rfl := List.mem_singleton.1 h
      exact if_pos rfl

namespace Tree

/-- A tree has the nodes and the texts that a log of writes calls for. -/
structure Represents (t : Tree) (ways : List (List Step)) (log : List Write) : Prop
    extends Charted t ways where
  mem_iff : ∀ way, way ∈ ways ↔ way = [] ∨ ∃ w ∈ log, way <+: w.way
  data_eq : ∀ {i : NodeIndex} {way : List Step},
    ways[i]? = some way → (t.node i).data = lastWritten log way

theorem represents_empty : Represents .empty [[]] [] where
  toCharted := charted_empty
  mem_iff way := by simp
  data_eq {i way} h := by
    obtain _ | i := i
    · rfl
    · simp at h

/-- The beginnings of a continued way. -/
theorem prefix_append_iff {α : Type} {w way steps : List α} :
    w <+: way ++ steps ↔ w <+: way ∨ ∃ pre, pre <+: steps ∧ w = way ++ pre := by
  constructor
  · intro h
    rcases List.prefix_or_prefix_of_prefix h (List.prefix_append way steps) with short | ⟨pre, rfl⟩
    · exact .inl short
    · exact .inr ⟨pre, (List.prefix_append_right_inj way).1 h, rfl⟩
  · rintro (short | ⟨pre, hpre, rfl⟩)
    · exact List.prefix_append_of_prefix short
    · exact (List.prefix_append_right_inj way).2 hpre

theorem data_setData (t : Tree) (i j : NodeIndex) (value : Text) :
    ((t.setData i value).node j).data =
      if i = j ∧ j < t.size then some value else (t.node j).data := by
  rw [node_setData]
  split <;> rfl

theorem insertAt_eq (t : Tree) (start : NodeIndex) (key : Key) (value : Text) :
    (t.insertAt start key value).1 =
      (t.createPath start key.steps).1.setData (t.createPath start key.steps).2 value := rfl

namespace Represents

variable {t : Tree} {ways : List (List Step)} {log : List Write} {start : NodeIndex}
variable {way : List Step}

/-- Where a chart has been continued the old log still tells what the old tree held: nothing at the
ways that are new. -/
theorem data_eq_of_append (h : Represents t ways log) {t' : Tree} {more : List (List Step)}
    (chart : Charted t' (ways ++ more)) {i : NodeIndex} {w : List Step}
    (hi : (ways ++ more)[i]? = some w) : (t.node i).data = lastWritten log w := by
  by_cases old : i < ways.length
  · rw [List.getElem?_append_left old] at hi
    exact h.data_eq hi
  · rw [node_of_size_le (h.size_eq ▸ Nat.le_of_not_lt old)]
    symm
    show lastWritten log w = none
    rw [Option.eq_none_iff_forall_ne_some]
    intro value written
    obtain ⟨e, he, rfl⟩ := exists_write_of_lastWritten written
    obtain ⟨j, hj⟩ := List.getElem?_of_mem ((h.mem_iff e.way).2 (.inr ⟨e, he, List.prefix_rfl⟩))
    have within : j < ways.length := (List.getElem?_eq_some_iff.1 hj).1
    have same := chart.index_unique hi (getElem?_append_of_eq_some hj more)
    exact old (same ▸ within)

/-- Storing a text below a node adds one write to the log. -/
theorem insertAt (h : Represents t ways log) (hs : ways[start]? = some way) (key : Key)
    (value : Text) :
    ∃ more, Represents (t.insertAt start key value).1 (ways ++ more)
      (log ++ [⟨way ++ key.steps, value⟩]) := by
  obtain ⟨more, chart, target, members, data⟩ :=
    h.toCharted.createPath hs key.isSegment_of_mem_steps
  refine ⟨more, chart.setData _ value, ?_, ?_⟩
  · intro w
    have old : w <+: way → w ∈ ways := h.mem_of_prefix (List.mem_of_getElem? hs)
    simp only [List.mem_append, List.mem_singleton, or_and_right, exists_or, exists_eq_left]
    rw [← or_assoc, ← h.mem_iff, ← List.mem_append, members, prefix_append_iff, ← or_assoc,
      or_iff_left_of_imp old]
  · intro i w hi
    have place : (t.createPath start key.steps).2 = i ↔ way ++ key.steps = w := by
      constructor
      · rintro rfl
        exact Option.some.inj (target.symm.trans hi)
      · rintro rfl
        exact chart.index_unique target hi
    rw [insertAt_eq, data_setData, lastWritten_concat, data]
    simp only [place, chart.lt_size hi, and_true]
    rw [h.data_eq_of_append chart hi]

end Represents

/-- The steps that lead to a node, read off its absolute name. -/
def stepsAt (t : Tree) (i : NodeIndex) : List Step :=
  (t.node i).absoluteName.elim [] Step.ofText

/-- A tree that grew from the empty one by a log of writes. -/
inductive Grown : Tree → List Write → Prop where
  | empty : Grown .empty []
  | insertAt {t : Tree} {log : List Write} {start : NodeIndex} (grown : Grown t log)
      (inside : start < t.size) (key : Key) (value : Text) :
      Grown (t.insertAt start key value).1 (log ++ [⟨t.stepsAt start ++ key.steps, value⟩])

theorem Charted.stepsAt_eq {t : Tree} {ways : List (List Step)} {i : NodeIndex}
    {way : List Step} (h : Charted t ways) (hi : ways[i]? = some way) : t.stepsAt i = way := by
  rw [stepsAt, h.absoluteName_eq hi, absoluteName]
  split
  · rename_i top
    exact top.symm
  · exact Step.ofText_pathText (h.segments way (List.mem_of_getElem? hi))

/-- A grown tree represents its log. -/
theorem Grown.represents {t : Tree} {log : List Write} (h : Grown t log) :
    ∃ ways, Represents t ways log := by
  induction h with
  | empty => exact ⟨_, represents_empty⟩
  | insertAt grown inside key value ih =>
    obtain ⟨ways, ih⟩ := ih
    obtain ⟨way, hs⟩ := ih.exists_way inside
    obtain ⟨more, next⟩ := ih.insertAt hs key value
    rw [ih.stepsAt_eq hs]
    exact ⟨_, next⟩

end Tree

end ResourceLookup
