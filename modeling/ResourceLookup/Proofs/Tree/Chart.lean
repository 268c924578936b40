import Mathlib.Data.List.Induction
import ResourceLookup.Proofs.Key.Steps
import ResourceLookup.Proofs.Tree.Slots

/-!
# Charts

A chart of a tree lists, by node index, the ways that lead from the root to the nodes. It says
everything about the shape of the tree: which child stands in which slot, how the nodes are called,
and what the index of absolute names holds. `Charted.createChild` and `Charted.createPath` say how
a chart grows when a tree does. Nothing else about the making of children is needed afterwards.
-/

namespace ResourceLookup

namespace Tree

/-- The absolute name of the node at the end of a way. -/
def absoluteName (way : List Step) : Option Text :=
  if way = [] then none else some (Step.pathText way)

/-- The list `ways` has, at the index of each node, the way that leads to it from the root. -/
structure Charted (t : Tree) (ways : List (List Step)) : Prop where
  size_eq : t.size = ways.length
  root_way : ways[root]? = some []
  nodup : ways.Nodup
  segments : ∀ way ∈ ways, ∀ s ∈ way, IsSegment s.segment
  parent : ∀ {child : NodeIndex} {way : List Step} {step : Step},
    ways[child]? = some (way ++ [step]) → ∃ i < child, ways[i]? = some way
  absoluteName_eq : ∀ {i : NodeIndex} {way : List Step},
    ways[i]? = some way → (t.node i).absoluteName = absoluteName way
  name_eq : ∀ {i : NodeIndex} {way : List Step} {step : Step},
    ways[i]? = some (way ++ [step]) → (t.node i).name = step.segment
  holds_iff : ∀ {i : NodeIndex} {way : List Step}, ways[i]? = some way →
    ∀ (b : Binding) (category : Category) (segment : Text) (child : NodeIndex),
      ((t.node i).children b).Holds category segment child ↔
        category = Category.ofSegment segment ∧ ways[child]? = some (way ++ [⟨b, segment⟩])
  findPath?_iff : ∀ (name : Text) (i : NodeIndex), t.findPath? name = some i ↔
    ∃ way, way ≠ [] ∧ ways[i]? = some way ∧ Step.pathText way = name

theorem charted_empty : Charted .empty [[]] where
  size_eq := rfl
  root_way := rfl
  nodup := by simp
  segments := by simp
  parent {child way step} h := by
    obtain _ | child := child <;> simp at h
  absoluteName_eq {i way} h := by
    obtain _ | i := i
    · obtain rfl := Option.some.inj h
      rfl
    · simp at h
  name_eq {i way step} h := by
    obtain _ | i := i <;> simp at h
  holds_iff {i way} h b category segment child := by
    obtain _ | i := i
    · have bare : (node empty 0).children b = .empty := by cases b <;> rfl
      rw [bare]
      obtain rfl := Option.some.inj h
      obtain _ | child := child <;> simp
    · simp at h
  findPath?_iff name i := by
    constructor
    · intro found
      simp [findPath?, empty] at found
    · rintro ⟨way, nonempty, h, -⟩
      obtain _ | i := i
      · exact absurd (Option.some.inj h).symm nonempty
      · simp at h

/-- An index leads to an element of an extended list if it did before or is the last one. -/
theorem getElem?_concat_eq_some_iff {α : Type} {xs : List α} {x y : α} {i : Nat} :
    (xs ++ [x])[i]? = some y ↔ xs[i]? = some y ∨ i = xs.length ∧ x = y := by
  rw [List.getElem?_append]
  by_cases within : i < xs.length
  · simp [within, Nat.ne_of_lt within]
  · rw [if_neg within, List.getElem?_eq_none (Nat.le_of_not_lt within)]
    have place : i - xs.length = 0 ↔ i = xs.length := by omega
    simp [List.getElem?_singleton, place]

/-- Elements stay where they are when a list goes on behind them. -/
theorem getElem?_append_of_eq_some {α : Type} {xs : List α} {x : α} {i : Nat}
    (h : xs[i]? = some x) (ys : List α) : (xs ++ ys)[i]? = some x := by
  rw [List.getElem?_append_left (List.getElem?_eq_some_iff.1 h).1, h]

namespace Charted

variable {t : Tree} {ways : List (List Step)} {i j parent child start : NodeIndex}
variable {way : List Step} {step : Step}

theorem lt_size (h : Charted t ways) (hi : ways[i]? = some way) : i < t.size := by
  rw [h.size_eq]
  exact (List.getElem?_eq_some_iff.1 hi).1

/-- Every node has its way. -/
theorem exists_way (h : Charted t ways) (hi : i < t.size) : ∃ way, ways[i]? = some way :=
  ⟨_, List.getElem?_eq_getElem (h.size_eq ▸ hi)⟩

/-- One way leads to one node only. -/
theorem index_unique (h : Charted t ways) (hi : ways[i]? = some way) (hj : ways[j]? = some way) :
    i = j :=
  (List.getElem?_inj (List.getElem?_eq_some_iff.1 hi).1 h.nodup).1 (hi.trans hj.symm)

theorem way_eq_nil_iff (h : Charted t ways) (hi : ways[i]? = some way) : way = [] ↔ i = root := by
  constructor
  · rintro rfl
    exact h.index_unique hi h.root_way
  · rintro rfl
    exact Option.some.inj (hi.symm.trans h.root_way)

/-- With a node the chart has every node above it. -/
theorem mem_of_prefix (h : Charted t ways) {pre : List Step} (hw : way ∈ ways)
    (begins : pre <+: way) : pre ∈ ways := by
  obtain ⟨rest, rfl⟩ := begins
  induction rest using List.reverseRecOn with
  | nil => simpa using hw
  | append_singleton rest step ih =>
    rw [← List.append_assoc] at hw
    obtain ⟨child, hc⟩ := List.getElem?_of_mem hw
    obtain ⟨i, -, hi⟩ := h.parent hc
    exact ih (List.mem_of_getElem? hi)

theorem child?_eq_some_iff (h : Charted t ways) (hi : ways[i]? = some way) :
    (t.node i).child? step.binding (Category.ofSegment step.segment) step.segment = some child ↔
      ways[child]? = some (way ++ [step]) := by
  have slot := h.holds_iff hi step.binding (Category.ofSegment step.segment) step.segment child
  rw [ChildSet.holds_ofSegment_iff] at slot
  exact slot.trans (and_iff_right rfl)

/-- What a slot holds, asked as a search asks. -/
theorem get?_eq_some_iff (h : Charted t ways) (hi : ways[i]? = some way) {b : Binding}
    {category : Category} {segment : Text}
    (proper : category = .singleMatch → segment = singleMatch) :
    ((t.node i).children b).get? category segment = some child ↔
      category = Category.ofSegment segment ∧ ways[child]? = some (way ++ [⟨b, segment⟩]) := by
  rw [← h.holds_iff hi]
  exact (and_iff_left proper).symm

/-- A child is called by its way. -/
theorem childName_eq (h : Charted t ways) (hi : ways[i]? = some way) (step : Step) :
    (t.node i).childName step = Step.pathText (way ++ [step]) := by
  rw [Node.childName, h.absoluteName_eq hi, absoluteName]
  obtain ⟨binding, segment⟩ := step
  by_cases top : way = []
  · subst top
    cases binding <;> simp [Step.pathText, Step.text]
  · rw [if_neg top, Step.pathText_append top]
    simp

theorem isSegment_of_mem_concat (h : Charted t ways) (hp : ways[parent]? = some way)
    (segment : IsSegment step.segment) : ∀ s ∈ way ++ [step], IsSegment s.segment := by
  intro s hs
  rcases List.mem_append.1 hs with hs | hs
  · exact h.segments way (List.mem_of_getElem? hp) s hs
  · exact List.mem_singleton.1 hs ▸ segment

/-- The slots after a new child has taken one. -/
theorem holds_addChild_iff (h : Charted t ways) (hp : ways[parent]? = some way)
    (fresh : way ++ [step] ∉ ways) {w : List Step}
    (hi : (ways ++ [way ++ [step]])[i]? = some w) (b : Binding) (category : Category)
    (name : Text) (child : NodeIndex) :
    (((t.addChild parent step).node i).children b).Holds category name child ↔
      category = Category.ofSegment name ∧
        (ways ++ [way ++ [step]])[child]? = some (w ++ [⟨b, name⟩]) := by
  rw [node_addChild (h.lt_size hp), getElem?_concat_eq_some_iff]
  rcases getElem?_concat_eq_some_iff.1 hi with old | ⟨rfl, rfl⟩
  · rw [if_neg (Nat.ne_of_lt (h.lt_size old))]
    by_cases same : i = parent
    · subst same
      obtain rfl := Option.some.inj (old.symm.trans hp)
      rw [if_pos rfl, Node.holds_addChild, h.holds_iff old, h.size_eq]
      obtain ⟨binding, segment⟩ := step
      by_cases slot : binding = b ∧ segment = name
      · obtain ⟨rfl, rfl⟩ := slot
        have taken : ways[child]? ≠ some (w ++ [⟨binding, segment⟩]) :=
          fun old => fresh (List.mem_of_getElem? old)
        simp [taken, eq_comm]
      · have other : w ++ [⟨binding, segment⟩] ≠ w ++ [⟨b, name⟩] := by simpa using slot
        rw [if_neg (fun hs => slot ⟨hs.1, hs.2.2⟩)]
        simp [other]
    · have other : way ++ [step] ≠ w ++ [⟨b, name⟩] := by
        intro equal
        obtain ⟨rfl, -⟩ := List.append_inj' equal rfl
        exact same (h.index_unique old hp)
      rw [if_neg same, h.holds_iff old]
      simp [other]
  · have none_below : ways[child]? ≠ some (way ++ [step] ++ [⟨b, name⟩]) := by
      intro old
      obtain ⟨i, -, above⟩ := h.parent old
      exact fresh (List.mem_of_getElem? above)
    rw [if_pos h.size_eq.symm, Node.children_new]
    simp only [ChildSet.not_holds_empty, none_below]
    simp

/-- The index of absolute names after a new child has joined it. No earlier entry has its name. -/
theorem findPath?_addChild_iff (h : Charted t ways) (hp : ways[parent]? = some way)
    (segment : IsSegment step.segment) (fresh : way ++ [step] ∉ ways) (name : Text)
    (i : NodeIndex) :
    (t.addChild parent step).findPath? name = some i ↔
      ∃ w, w ≠ [] ∧ (ways ++ [way ++ [step]])[i]? = some w ∧ Step.pathText w = name := by
  rw [findPath?_addChild, h.childName_eq hp]
  by_cases new : Step.pathText (way ++ [step]) = name
  · rw [if_pos new, Option.some_inj, h.size_eq]
    constructor
    · rintro rfl
      exact ⟨_, by simp, getElem?_concat_eq_some_iff.2 (.inr ⟨rfl, rfl⟩), new⟩
    · rintro ⟨w, -, hi, same⟩
      rcases getElem?_concat_eq_some_iff.1 hi with hi | ⟨rfl, -⟩
      · have equal : w = way ++ [step] :=
          Step.pathText_injective (h.segments w (List.mem_of_getElem? hi))
            (h.isSegment_of_mem_concat hp segment) (same.trans new.symm)
        exact absurd (List.mem_of_getElem? (equal ▸ hi)) fresh
      · rfl
  · rw [if_neg new, h.findPath?_iff]
    constructor
    · rintro ⟨w, nonempty, hi, same⟩
      exact ⟨w, nonempty, getElem?_concat_eq_some_iff.2 (.inl hi), same⟩
    · rintro ⟨w, nonempty, hi, same⟩
      rcases getElem?_concat_eq_some_iff.1 hi with hi | ⟨rfl, rfl⟩
      · exact ⟨w, nonempty, hi, same⟩
      · exact absurd same new

/-- A child that is missing on the chart can be put at its end. -/
theorem push (h : Charted t ways) (hp : ways[parent]? = some way) (segment : IsSegment step.segment)
    (fresh : way ++ [step] ∉ ways) :
    Charted (t.addChild parent step) (ways ++ [way ++ [step]]) where
  size_eq := by simp [h.size_eq]
  root_way := getElem?_concat_eq_some_iff.2 (.inl h.root_way)
  nodup := by
    rw [List.nodup_append]
    refine ⟨h.nodup, by simp, ?_⟩
    rintro a ha b hb rfl
    exact fresh (List.mem_singleton.1 hb ▸ ha)
  segments w hw := by
    rcases List.mem_append.1 hw with hw | hw
    · exact h.segments w hw
    · exact List.mem_singleton.1 hw ▸ h.isSegment_of_mem_concat hp segment
  parent {child w s} hc := by
    rcases getElem?_concat_eq_some_iff.1 hc with hc | ⟨rfl, same⟩
    · obtain ⟨i, less, hi⟩ := h.parent hc
      exact ⟨i, less, getElem?_concat_eq_some_iff.2 (.inl hi)⟩
    · obtain ⟨rfl, -⟩ := List.append_inj' same rfl
      exact ⟨parent, h.size_eq ▸ h.lt_size hp, getElem?_concat_eq_some_iff.2 (.inl hp)⟩
  absoluteName_eq {i w} hi := by
    rw [node_addChild (h.lt_size hp)]
    rcases getElem?_concat_eq_some_iff.1 hi with hi | ⟨rfl, rfl⟩
    · rw [if_neg (Nat.ne_of_lt (h.lt_size hi)), ← h.absoluteName_eq hi]
      split
      · exact Node.absoluteName_addChild ..
      · rfl
    · rw [if_pos h.size_eq.symm, h.childName_eq hp]
      simp [Node.new, absoluteName]
  name_eq {i w s} hi := by
    rw [node_addChild (h.lt_size hp)]
    rcases getElem?_concat_eq_some_iff.1 hi with hi | ⟨rfl, same⟩
    · rw [if_neg (Nat.ne_of_lt (h.lt_size hi)), ← h.name_eq hi]
      split
      · exact Node.name_addChild ..
      · rfl
    · rw [if_pos h.size_eq.symm]
      obtain ⟨-, last⟩ := List.append_inj' same rfl
      exact congrArg Step.segment (List.singleton_inj.1 last)
  holds_iff hi := h.holds_addChild_iff hp fresh hi
  findPath?_iff := h.findPath?_addChild_iff hp segment fresh

/-- A step leads to a child that is on the chart already or puts the way to it at the end of the
chart. -/
theorem createChild (h : Charted t ways) (hp : ways[parent]? = some way)
    (segment : IsSegment step.segment) :
    (∃ child, ways[child]? = some (way ++ [step]) ∧ t.createChild parent step = (t, child)) ∨
      way ++ [step] ∉ ways ∧ t.createChild parent step = (t.addChild parent step, t.size) ∧
        Charted (t.addChild parent step) (ways ++ [way ++ [step]]) := by
  cases slot : (t.node parent).child? step.binding (Category.ofSegment step.segment)
      step.segment with
  | some child =>
    exact .inl ⟨child, (h.child?_eq_some_iff hp).1 slot, createChild_of_child? slot⟩
  | none =>
    have fresh : way ++ [step] ∉ ways := by
      intro old
      obtain ⟨child, hc⟩ := List.getElem?_of_mem old
      rw [(h.child?_eq_some_iff hp).2 hc] at slot
      cases slot
    exact .inr ⟨fresh, createChild_of_child?_eq_none slot, h.push hp segment fresh⟩

/-- Storing a text does not change the chart. -/
theorem setData (h : Charted t ways) (i : NodeIndex) (value : Text) :
    Charted (t.setData i value) ways where
  size_eq := (size_setData t i value).trans h.size_eq
  root_way := h.root_way
  nodup := h.nodup
  segments := h.segments
  parent := h.parent
  absoluteName_eq hj := by rw [absoluteName_setData, h.absoluteName_eq hj]
  name_eq hj := by rw [name_setData, h.name_eq hj]
  holds_iff hj := by
    simpa using h.holds_iff hj
  findPath?_iff := h.findPath?_iff

theorem exists_prefix_cons_iff {way steps w : List Step} {step : Step} :
    (∃ pre, pre <+: step :: steps ∧ w = way ++ pre) ↔
      w = way ∨ ∃ pre, pre <+: steps ∧ w = way ++ [step] ++ pre := by
  constructor
  · rintro ⟨pre, hpre, rfl⟩
    rcases List.prefix_cons_iff.1 hpre with rfl | ⟨rest, rfl, hrest⟩
    · exact .inl (List.append_nil way)
    · exact .inr ⟨rest, hrest, by simp⟩
  · rintro (rfl | ⟨pre, hpre, rfl⟩)
    · exact ⟨[], List.nil_prefix, (List.append_nil w).symm⟩
    · exact ⟨step :: pre, List.prefix_cons_iff.2 (.inr ⟨pre, rfl, hpre⟩), by simp⟩

/-- Steps from a node put the ways along them at the end of the chart, as far as they are missing.
No text is stored on the way. -/
theorem createPath (h : Charted t ways) (hs : ways[start]? = some way) {steps : List Step}
    (segments : ∀ s ∈ steps, IsSegment s.segment) :
    ∃ more, Charted (t.createPath start steps).1 (ways ++ more) ∧
      (ways ++ more)[(t.createPath start steps).2]? = some (way ++ steps) ∧
      (∀ w, w ∈ ways ++ more ↔ w ∈ ways ∨ ∃ pre, pre <+: steps ∧ w = way ++ pre) ∧
      ∀ i, ((t.createPath start steps).1.node i).data = (t.node i).data := by
  induction steps generalizing t ways start way with
  | nil =>
    refine ⟨[], by simpa using h, by simpa using hs, ?_, fun _ => rfl⟩
    intro w
    simp only [List.append_nil, List.prefix_nil]
    have old := List.mem_of_getElem? hs
    constructor
    · exact .inl
    · rintro (hw | ⟨pre, rfl, rfl⟩)
      · exact hw
      · simpa using old
  | cons step steps ih =>
    have rest : ∀ s ∈ steps, IsSegment s.segment := fun s hs => segments s (.tail _ hs)
    obtain ⟨child, hc, unchanged⟩ | ⟨-, grown, chart⟩ := h.createChild hs (segments step (.head _))
    · obtain ⟨more, chart, target, members, data⟩ := ih h hc rest
      rw [createPath_cons, unchanged]
      refine ⟨more, chart, by simpa using target, ?_, data⟩
      intro w
      have old : w = way → w ∈ ways := fun same => same ▸ List.mem_of_getElem? hs
      rw [members, exists_prefix_cons_iff, ← or_assoc, or_iff_left_of_imp old]
    · have hc : (ways ++ [way ++ [step]])[t.size]? = some (way ++ [step]) :=
        getElem?_concat_eq_some_iff.2 (.inr ⟨h.size_eq, rfl⟩)
      obtain ⟨more, chart, target, members, data⟩ := ih chart hc rest
      rw [createPath_cons, grown]
      refine ⟨(way ++ [step]) :: more, by simpa using chart, by simpa using target, ?_,
        fun i => (data i).trans (data_addChild (h.lt_size hs) step i)⟩
      intro w
      have old : w = way → w ∈ ways := fun same => same ▸ List.mem_of_getElem? hs
      have new : w = way ++ [step] → ∃ pre, pre <+: steps ∧ w = way ++ [step] ++ pre :=
        fun same => ⟨[], List.nil_prefix, by simpa using same⟩
      rw [List.append_cons, members, exists_prefix_cons_iff, List.mem_append, List.mem_singleton,
        or_assoc, or_iff_right_of_imp new, ← or_assoc, or_iff_left_of_imp old]

end Charted

end Tree

end ResourceLookup
