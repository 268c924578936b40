import Mathlib.Data.Finset.Card
import Mathlib.Data.List.Infix
import ResourceLookup.Proofs.Tree.Growth

/-!
# Consistency

The nodes of a tree, their slots, their absolute names and the index of these names are kept apart
from each other. They agree in every grown tree: `consistent_of_grown` collects what they agree on.
-/

namespace ResourceLookup

/-- A place for a child. -/
structure Slot where
  parent : NodeIndex
  binding : Binding
  category : Category
  segment : Text

namespace Tree

/-- A child stands in a slot. -/
def Occupies (t : Tree) (slot : Slot) (child : NodeIndex) : Prop :=
  slot.parent < t.size ∧
    ((t.node slot.parent).children slot.binding).Holds slot.category slot.segment child

/-- Where steps lead from a node, if there are children for all of them. -/
def walk? (t : Tree) : NodeIndex → List Step → Option NodeIndex
  | i, [] => some i
  | i, step :: steps =>
    ((t.node i).child? step.binding (Category.ofSegment step.segment) step.segment).bind
      fun child => t.walk? child steps

/-- What nodes, slots, absolute names and their index have to do with each other and with the
writes that made them. -/
structure Consistent (t : Tree) (log : List Write) : Prop where
  /-- Every node but the root stands in one slot. -/
  slot_unique : ∀ child < t.size, child ≠ root → ∃! slot, t.Occupies slot child
  /-- A child comes after its parent, and it is called by its slot. -/
  of_occupies : ∀ slot child, t.Occupies slot child →
    slot.parent < child ∧ child < t.size ∧ (t.node child).name = slot.segment ∧
      slot.category = Category.ofSegment (t.node child).name ∧
      (t.node child).absoluteName =
        some ((t.node slot.parent).childName ⟨slot.binding, slot.segment⟩)
  /-- The root has no absolute name. -/
  absoluteName_root : (t.node root).absoluteName = none
  /-- The absolute name of any other node is a key, and this key spells the only way to the node. -/
  absoluteName_spells : ∀ i < t.size, i ≠ root → ∃ key : Key,
    (t.node i).absoluteName = some key.text ∧
      ∀ steps, t.walk? root steps = some i ↔ steps = key.steps
  /-- The index has the absolute names and nothing else. -/
  findPath?_iff : ∀ name i, t.findPath? name = some i ↔
    i < t.size ∧ i ≠ root ∧ (t.node i).absoluteName = some name
  /-- Whatever is stored next, the index keeps its entries. -/
  findPath?_insertAt : ∀ start < t.size, ∀ (key : Key) (value name : Text) (i : NodeIndex),
    t.findPath? name = some i → (t.insertAt start key value).1.findPath? name = some i
  /-- A node without children is there for its data. -/
  exists_data : ∀ i < t.size, i ≠ root → (∀ slot child, t.Occupies slot child → slot.parent ≠ i) →
    ∃ value, (t.node i).data = some value
  /-- Apart from the root there is one node for each beginning of a written way. -/
  size_eq : t.size = 1 + ((log.flatMap fun w => w.way.inits).toFinset.erase []).card

namespace Charted

variable {t : Tree} {ways : List (List Step)} {i child : NodeIndex} {way steps : List Step}

theorem occupies_iff (h : Charted t ways) {parent : NodeIndex} {b : Binding}
    {category : Category} {segment : Text} :
    t.Occupies ⟨parent, b, category, segment⟩ child ↔ category = Category.ofSegment segment ∧
      ∃ way, ways[parent]? = some way ∧ ways[child]? = some (way ++ [⟨b, segment⟩]) := by
  constructor
  · rintro ⟨inside, holds⟩
    obtain ⟨way, hp⟩ := h.exists_way inside
    obtain ⟨category, hc⟩ := (h.holds_iff hp _ _ _ _).1 holds
    exact ⟨category, way, hp, hc⟩
  · rintro ⟨category, way, hp, hc⟩
    exact ⟨h.lt_size hp, (h.holds_iff hp _ _ _ _).2 ⟨category, hc⟩⟩

theorem walk?_eq_some_iff (h : Charted t ways) (hi : ways[i]? = some way) :
    t.walk? i steps = some child ↔ ways[child]? = some (way ++ steps) := by
  induction steps generalizing i way with
  | nil =>
    rw [walk?, Option.some_inj, List.append_nil]
    constructor
    · rintro rfl
      exact hi
    · intro hc
      exact h.index_unique hi hc
  | cons step steps ih =>
    rw [walk?, Option.bind_eq_some_iff, List.append_cons]
    constructor
    · rintro ⟨next, found, rest⟩
      exact (ih ((h.child?_eq_some_iff hi).1 found)).1 rest
    · intro hc
      obtain ⟨next, hn⟩ :=
        List.getElem?_of_mem (h.mem_of_prefix (List.mem_of_getElem? hc) (List.prefix_append ..))
      exact ⟨next, (h.child?_eq_some_iff hi).2 hn, (ih hn).2 hc⟩

/-- The way to a node other than the root has a last step. -/
theorem exists_concat (h : Charted t ways) (inside : i < t.size) (below : i ≠ root) :
    ∃ way step, ways[i]? = some (way ++ [step]) := by
  obtain ⟨way, hi⟩ := h.exists_way inside
  rcases List.eq_nil_or_concat way with rfl | ⟨way, step, rfl⟩
  · exact absurd ((h.way_eq_nil_iff hi).1 rfl) below
  · exact ⟨way, step, by simpa using hi⟩

theorem existsUnique_occupies (h : Charted t ways) (inside : i < t.size) (below : i ≠ root) :
    ∃! slot, t.Occupies slot i := by
  obtain ⟨way, step, hi⟩ := h.exists_concat inside below
  obtain ⟨parent, -, hp⟩ := h.parent hi
  refine ⟨⟨parent, step.binding, .ofSegment step.segment, step.segment⟩,
    h.occupies_iff.2 ⟨rfl, way, hp, hi⟩, ?_⟩
  rintro ⟨parent', binding, category, segment⟩ occupies
  obtain ⟨rfl, way', hp', hi'⟩ := h.occupies_iff.1 occupies
  obtain ⟨rfl, last⟩ := List.append_inj' (Option.some.inj (hi'.symm.trans hi)) rfl
  obtain rfl := List.singleton_inj.1 last
  rw [h.index_unique hp' hp]

theorem of_occupies (h : Charted t ways) {slot : Slot} (occupies : t.Occupies slot child) :
    slot.parent < child ∧ child < t.size ∧ (t.node child).name = slot.segment ∧
      slot.category = Category.ofSegment (t.node child).name ∧
      (t.node child).absoluteName =
        some ((t.node slot.parent).childName ⟨slot.binding, slot.segment⟩) := by
  obtain ⟨category, way, hp, hc⟩ := h.occupies_iff.1 occupies
  obtain ⟨parent, less, hp'⟩ := h.parent hc
  have name := h.name_eq hc
  refine ⟨h.index_unique hp' hp ▸ less, h.lt_size hc, name, name ▸ category, ?_⟩
  rw [h.absoluteName_eq hc, h.childName_eq hp]
  simp [absoluteName]

theorem absoluteName_spells (h : Charted t ways) (inside : i < t.size) (below : i ≠ root) :
    ∃ key : Key, (t.node i).absoluteName = some key.text ∧
      ∀ steps, t.walk? root steps = some i ↔ steps = key.steps := by
  obtain ⟨way, hi⟩ := h.exists_way inside
  have nonempty : way ≠ [] := fun top => below ((h.way_eq_nil_iff hi).1 top)
  have proper := h.segments way (List.mem_of_getElem? hi)
  refine ⟨.ofSteps way nonempty proper, ?_, ?_⟩
  · rw [h.absoluteName_eq hi, absoluteName, if_neg nonempty, Key.text_ofSteps]
  · intro steps
    rw [h.walk?_eq_some_iff h.root_way, List.nil_append, Key.steps_ofSteps, hi, Option.some_inj]
    exact eq_comm

theorem findPath?_eq_some_iff (h : Charted t ways) {name : Text} :
    t.findPath? name = some i ↔
      i < t.size ∧ i ≠ root ∧ (t.node i).absoluteName = some name := by
  rw [h.findPath?_iff]
  constructor
  · rintro ⟨way, nonempty, hi, rfl⟩
    refine ⟨h.lt_size hi, fun top => nonempty ((h.way_eq_nil_iff hi).2 top), ?_⟩
    rw [h.absoluteName_eq hi, absoluteName, if_neg nonempty]
  · rintro ⟨inside, below, named⟩
    obtain ⟨way, hi⟩ := h.exists_way inside
    have nonempty : way ≠ [] := fun top => below ((h.way_eq_nil_iff hi).1 top)
    rw [h.absoluteName_eq hi, absoluteName, if_neg nonempty, Option.some_inj] at named
    exact ⟨way, nonempty, hi, named⟩

/-- Continuing a chart keeps the entries of the index. -/
theorem findPath?_of_append (h : Charted t ways) {t' : Tree} {more : List (List Step)}
    (next : Charted t' (ways ++ more)) {name : Text} (found : t.findPath? name = some i) :
    t'.findPath? name = some i := by
  obtain ⟨way, nonempty, hi, named⟩ := (h.findPath?_iff name i).1 found
  exact (next.findPath?_iff name i).2 ⟨way, nonempty, getElem?_append_of_eq_some hi more, named⟩

end Charted

namespace Represents

variable {t : Tree} {ways : List (List Step)} {log : List Write} {i : NodeIndex}

/-- A way on the chart goes on to a child unless it was written itself. -/
theorem exists_data (h : Represents t ways log) (inside : i < t.size) (below : i ≠ root)
    (leaf : ∀ slot child, t.Occupies slot child → slot.parent ≠ i) :
    ∃ value, (t.node i).data = some value := by
  obtain ⟨way, hi⟩ := h.exists_way inside
  have nonempty : way ≠ [] := fun top => below ((h.way_eq_nil_iff hi).1 top)
  obtain ⟨w, hw, rest, whole⟩ :=
    ((h.mem_iff way).1 (List.mem_of_getElem? hi)).resolve_left nonempty
  rw [h.data_eq hi]
  cases rest with
  | nil =>
    obtain rfl : w.way = way := by simpa using whole.symm
    exact exists_lastWritten hw
  | cons step rest =>
    have onward : way ++ [step] ∈ ways := by
      refine (h.mem_iff _).2 (.inr ⟨w, hw, rest, ?_⟩)
      simpa using whole
    obtain ⟨child, hc⟩ := List.getElem?_of_mem onward
    exact absurd rfl (leaf _ child (h.occupies_iff.2 ⟨rfl, way, hi, hc⟩))

theorem size_eq_card (h : Represents t ways log) :
    t.size = 1 + ((log.flatMap fun w => w.way.inits).toFinset.erase []).card := by
  have same : (log.flatMap fun w => w.way.inits).toFinset.erase [] = ways.toFinset.erase [] := by
    ext way
    simp only [Finset.mem_erase, List.mem_toFinset, List.mem_flatMap, List.mem_inits, h.mem_iff]
    exact and_congr_right fun nonempty => (or_iff_right nonempty).symm
  have top : [] ∈ ways.toFinset := List.mem_toFinset.2 (List.mem_of_getElem? h.root_way)
  rw [same, h.size_eq, ← List.toFinset_card_of_nodup h.nodup, Nat.add_comm,
    Finset.card_erase_add_one top]

end Represents

/-- Everything agrees in a tree that has grown, wherever its writes began. -/
theorem consistent_of_grown {t : Tree} {log : List Write} (h : Grown t log) : Consistent t log := by
  obtain ⟨ways, represents⟩ := h.represents
  have chart := represents.toCharted
  exact {
    slot_unique := fun _ inside below => chart.existsUnique_occupies inside below
    of_occupies := fun _ _ occupies => chart.of_occupies occupies
    absoluteName_root := chart.absoluteName_eq chart.root_way
    absoluteName_spells := fun _ inside below => chart.absoluteName_spells inside below
    findPath?_iff := fun _ _ => chart.findPath?_eq_some_iff
    findPath?_insertAt := fun start inside key value name i found => by
      obtain ⟨way, hs⟩ := chart.exists_way inside
      obtain ⟨more, next⟩ := represents.insertAt hs key value
      exact chart.findPath?_of_append next.toCharted found
    exists_data := fun _ inside below leaf => represents.exists_data inside below leaf
    size_eq := represents.size_eq_card }

/-- A loosely bound type, and a relative key stored below its node. -/
theorem consistent_below_type :
    let panels : Key := ⟨"app*Panel.?".toList, by decide +kernel, by decide +kernel⟩
    let title : Key := ⟨"title".toList, by decide +kernel, by decide +kernel⟩
    let t := (empty.insertAt root panels "1".toList).1
    2 < t.size ∧ Consistent (t.insertAt 2 title "2".toList).1
      [⟨empty.stepsAt root ++ panels.steps, "1".toList⟩,
        ⟨t.stepsAt 2 ++ title.steps, "2".toList⟩] := by
  intro panels title t
  have inside : 2 < t.size := by decide +kernel
  have grown : Grown t _ := Grown.empty.insertAt (by decide) panels _
  exact ⟨inside, consistent_of_grown (grown.insertAt inside title _)⟩

end Tree

end ResourceLookup
