import Std.Data.ExtTreeMap
import ResourceLookup.Hierarchy
import ResourceLookup.Key.Segment
import ResourceLookup.Tree.NodeIndex

/-!
# Children of a node

The children that are bound to a node with one and the same binding are kept by category:
instances by name, types by path, and at most one child for the segment `?`. A child is looked
up exactly, or, for a type, under the nearest name of the type's ancestry that has a child.
-/

namespace ResourceLookup

/-- Children that stand for types, by type name. -/
structure TypeIndex where
  children : Std.ExtTreeMap Text NodeIndex compare

namespace TypeIndex

/-- The index without children. -/
def empty : TypeIndex := ⟨∅⟩

instance : Inhabited TypeIndex := ⟨empty⟩

/-- The child for exactly this type. -/
def get? (types : TypeIndex) (name : Text) : Option NodeIndex := types.children[name]?

/-- Puts a child in the place of the one for the type. -/
def insert (types : TypeIndex) (name : Text) (child : NodeIndex) : TypeIndex :=
  ⟨types.children.insert name child⟩

/-- Whether there are no children. -/
def isEmpty (types : TypeIndex) : Bool := types.children.isEmpty

/-- The children in the order of their type names. -/
def toList (types : TypeIndex) : List NodeIndex := types.children.toList.map (·.2)

/-- The child for a type or for its nearest ancestor that has one. -/
def find? (types : TypeIndex) (hierarchy : Hierarchy) (name : Text) : Option NodeIndex :=
  if types.isEmpty then none
  else (types.get? name) <|> (hierarchy.ancestry name).findSome? types.get?

@[simp] theorem get?_empty (name : Text) : empty.get? name = none := by simp [get?, empty]

theorem get?_insert (types : TypeIndex) (name other : Text) (child : NodeIndex) :
    (types.insert name child).get? other =
      if name = other then some child else types.get? other := by
  simp only [get?, insert, Std.ExtTreeMap.getElem?_insert]
  split <;> simp_all

end TypeIndex

/-- The place of the child for `?`. It takes no name: every such segment leads to the same
child. -/
structure SingleSlot where
  child : Option NodeIndex
deriving DecidableEq, Repr

namespace SingleSlot

/-- The slot without a child. -/
def empty : SingleSlot := ⟨none⟩

/-- Puts a child in the place of the one in the slot. -/
def set (_slot : SingleSlot) (child : NodeIndex) : SingleSlot := ⟨some child⟩

end SingleSlot

/-- The children bound to a node with one binding. -/
structure ChildSet where
  byName : Std.ExtTreeMap Text NodeIndex compare
  byType : TypeIndex
  single : SingleSlot

namespace ChildSet

/-- The set without children. -/
def empty : ChildSet := ⟨∅, .empty, .empty⟩

instance : Inhabited ChildSet := ⟨empty⟩

/-- The child for exactly this segment, taken in the given category. -/
def get? (children : ChildSet) (category : Category) (segment : Text) : Option NodeIndex :=
  match category with
  | .byName => children.byName[segment]?
  | .byType => children.byType.get? segment
  | .singleMatch => children.single.child

/-- Puts a child in the place of the one for the segment in its category. -/
def insert (children : ChildSet) (category : Category) (segment : Text) (child : NodeIndex) :
    ChildSet :=
  match category with
  | .byName => { children with byName := children.byName.insert segment child }
  | .byType => { children with byType := children.byType.insert segment child }
  | .singleMatch => { children with single := children.single.set child }

/-- Whether there are no children. -/
def isEmpty (children : ChildSet) : Bool :=
  children.byName.isEmpty && children.byType.isEmpty && children.single.child.isNone

/-- The children: instances in the order of their names, types in the order of theirs, and the
one for `?`. -/
def toList (children : ChildSet) : List NodeIndex :=
  children.byName.toList.map (·.2) ++ children.byType.toList ++ children.single.child.toList

@[simp] theorem get?_empty (category : Category) (segment : Text) :
    empty.get? category segment = none := by
  cases category <;> simp [get?, empty, SingleSlot.empty]

/-- A child is found under its own segment and leaves all others alone. In the single-match
category every segment is the same. -/
theorem get?_insert (children : ChildSet) (category other : Category) (segment t : Text)
    (child : NodeIndex) :
    (children.insert category segment child).get? other t =
      if category = other ∧ (segment = t ∨ category = .singleMatch) then some child
      else children.get? other t := by
  cases category <;> cases other <;>
    simp [insert, get?, Std.ExtTreeMap.getElem?_insert, TypeIndex.get?_insert, SingleSlot.set]

end ChildSet

end ResourceLookup
