import ResourceLookup.Tree.Basic

/-!
# Slots

Every child stands in one slot of its parent, which a binding, a category and a segment tell apart
from the others. A step that finds its slot empty creates one node and changes one slot. All else
stays as it is, and storing a text leaves every slot alone.
-/

namespace ResourceLookup

namespace ChildSet

/-- A child stands in the slot for a segment in a category. The slot for `?` goes by no other
segment, although a look-up does not ask. -/
def Holds (children : ChildSet) (category : Category) (segment : Text) (child : NodeIndex) :
    Prop :=
  children.get? category segment = some child ∧
    (category = .singleMatch → segment = singleMatch)

@[simp] theorem not_holds_empty (category : Category) (segment : Text) (child : NodeIndex) :
    ¬ empty.Holds category segment child := by
  simp [Holds]

theorem holds_ofSegment_iff {children : ChildSet} {segment : Text} {child : NodeIndex} :
    children.Holds (Category.ofSegment segment) segment child ↔
      children.get? (Category.ofSegment segment) segment = some child := by
  simp [Holds, Category.ofSegment_eq_singleMatch_iff]

/-- A new child takes one slot, and the other slots keep theirs. -/
theorem holds_insert {children : ChildSet} {segment segment' : Text} {category' : Category}
    {child child' : NodeIndex} :
    (children.insert (Category.ofSegment segment) segment child).Holds category' segment' child' ↔
      if Category.ofSegment segment = category' ∧ segment = segment' then child' = child
      else children.Holds category' segment' child' := by
  simp only [Holds]
  rw [get?_insert]
  by_cases category : Category.ofSegment segment = category'
  · subst category
    by_cases same : segment = segment'
    · subst same
      rw [if_pos ⟨rfl, .inl rfl⟩, if_pos ⟨rfl, rfl⟩, Option.some_inj]
      exact ⟨fun h => h.1.symm, fun h => ⟨h.symm, Category.ofSegment_eq_singleMatch_iff.1⟩⟩
    · by_cases single : Category.ofSegment segment = .singleMatch
      · have question := Category.ofSegment_eq_singleMatch_iff.1 single
        have other : segment' ≠ singleMatch := fun h => same (question.trans h.symm)
        simp [single, same, other]
      · simp [single, same]
  · simp [category]

end ChildSet

namespace Node

theorem holds_addChild {node : Node} {b b' : Binding} {segment segment' : Text}
    {category' : Category} {child child' : NodeIndex} :
    ((node.addChild b (Category.ofSegment segment) segment child).children b').Holds category'
        segment' child' ↔
      if b = b' ∧ Category.ofSegment segment = category' ∧ segment = segment' then child' = child
      else (node.children b').Holds category' segment' child' := by
  rw [children_addChild]
  by_cases same : b = b'
  · simp [same, ChildSet.holds_insert]
  · simp [same]

@[simp] theorem name_addChild (node : Node) (b : Binding) (category : Category) (segment : Text)
    (child : NodeIndex) : (node.addChild b category segment child).name = node.name := by
  cases b <;> rfl

end Node

namespace Tree

theorem node_setData (t : Tree) (i j : NodeIndex) (value : Text) :
    (t.setData i value).node j =
      if i = j ∧ j < t.size then (t.node j).setData value else t.node j :=
  Arena.node_modify ..

@[simp] theorem absoluteName_setData (t : Tree) (i j : NodeIndex) (value : Text) :
    ((t.setData i value).node j).absoluteName = (t.node j).absoluteName := by
  rw [node_setData]
  split <;> rfl

@[simp] theorem name_setData (t : Tree) (i j : NodeIndex) (value : Text) :
    ((t.setData i value).node j).name = (t.node j).name := by
  rw [node_setData]
  split <;> rfl

@[simp] theorem children_setData (t : Tree) (i j : NodeIndex) (value : Text) (b : Binding) :
    ((t.setData i value).node j).children b = (t.node j).children b := by
  rw [node_setData]
  split
  · exact Node.children_setData ..
  · rfl

/-- A number beyond the tree reads as a bare root. -/
theorem node_of_size_le {t : Tree} {i : NodeIndex} (h : t.size ≤ i) : t.node i = .root := by
  have beyond : t.arena.nodes.size ≤ i := h
  simp [node, Arena.node, Array.getElem?_eq_none beyond]

/-- The tree with a new child in the slot for a step. -/
def addChild (t : Tree) (parent : NodeIndex) (step : Step) : Tree :=
  ⟨(t.arena.push (.new step.segment (some ((t.node parent).childName step)))).modify parent
      (·.addChild step.binding (Category.ofSegment step.segment) step.segment t.size),
    t.paths.insert ((t.node parent).childName step) t.size⟩

theorem createChild_of_child?_eq_none {t : Tree} {parent : NodeIndex} {step : Step}
    (h : (t.node parent).child? step.binding (Category.ofSegment step.segment) step.segment =
      none) :
    t.createChild parent step = (t.addChild parent step, t.size) := by
  simp [createChild, addChild, h]

@[simp] theorem size_addChild (t : Tree) (parent : NodeIndex) (step : Step) :
    (t.addChild parent step).size = t.size + 1 := by
  simp [addChild, size]

theorem findPath?_addChild (t : Tree) (parent : NodeIndex) (step : Step) (name : Text) :
    (t.addChild parent step).findPath? name =
      if (t.node parent).childName step = name then some t.size else t.findPath? name := by
  simp [findPath?, addChild, Std.ExtTreeMap.getElem?_insert]

/-- Only the new node and its parent are not what they were. -/
theorem node_addChild {t : Tree} {parent : NodeIndex} (hp : parent < t.size) (step : Step)
    (i : NodeIndex) :
    (t.addChild parent step).node i =
      if i = t.size then .new step.segment (some ((t.node parent).childName step))
      else if i = parent then
        (t.node i).addChild step.binding (Category.ofSegment step.segment) step.segment t.size
      else t.node i := by
  simp only [node, addChild, Arena.node_modify, Arena.node_push, Arena.size_push]
  have inside : parent < t.arena.size := hp
  by_cases last : i = t.arena.size
  · have other : parent ≠ t.arena.size := Nat.ne_of_lt inside
    simp [last, size, other]
  · by_cases same : i = parent
    · subst same
      simp [size, last, Nat.lt_succ_of_lt inside]
    · simp [size, last, same, Ne.symm same]

theorem data_addChild {t : Tree} {parent : NodeIndex} (hp : parent < t.size) (step : Step)
    (i : NodeIndex) : ((t.addChild parent step).node i).data = (t.node i).data := by
  rw [node_addChild hp]
  split
  · rename_i last
    rw [node_of_size_le (Nat.le_of_eq last.symm)]
    rfl
  · split
    · exact Node.data_addChild ..
    · rfl

end Tree

end ResourceLookup
