import ResourceLookup.Lookup.Search

/-!
# Choices among children

Among the children with one binding a segment has at most three candidates: the child for exactly
this segment, the nearest child for its type, and the child for `?`. A search tries the same child
only once. Skipping it the second time loses nothing, because what a search finds below a child
depends on the child and on what is left of the query, and not on the choice that led there.

`findFrom_eq_choices` puts the search into this form, in which every choice counts for itself.
The statements about what a search finds start from it.
-/

namespace ResourceLookup

/-- A way to select a child for a segment. -/
inductive Choice where
  /-- The child for exactly this segment. -/
  | exact
  /-- The nearest child for the type of the segment. -/
  | byType
  /-- The child for `?`. -/
  | single
deriving DecidableEq, Repr

namespace Choice

/-- The choices, in the order in which a search makes them. -/
def all : List Choice := [exact, byType, single]

/-- The place of a choice in the search order. -/
def rank : Choice → Nat
  | exact => 0
  | byType => 1
  | single => 2

theorem mem_all (c : Choice) : c ∈ all := by cases c <;> simp [all]

end Choice

namespace TypeIndex

theorem get?_of_isEmpty {types : TypeIndex} (h : types.isEmpty = true) (name : Text) :
    types.get? name = none := by
  obtain ⟨children⟩ := types
  have none_left : children = ∅ := Std.ExtTreeMap.isEmpty_iff.1 h
  simp [get?, none_left]

/-- The nearest child for a type is the first one on the way through the type itself and its
ancestry. -/
theorem find?_eq_findSome? (types : TypeIndex) (hierarchy : Hierarchy) (name : Text) :
    types.find? hierarchy name = (name :: hierarchy.ancestry name).findSome? types.get? := by
  rw [find?]
  split
  · rename_i empty
    symm
    rw [List.findSome?_eq_none_iff]
    intro candidate _
    exact get?_of_isEmpty empty candidate
  · rw [List.findSome?_cons]
    cases types.get? name <;> rfl

end TypeIndex

namespace ChildSet

theorem get?_of_isEmpty {children : ChildSet} (h : children.isEmpty = true) (category : Category)
    (segment : Text) : children.get? category segment = none := by
  simp only [isEmpty, Bool.and_eq_true, Option.isNone_iff_eq_none] at h
  obtain ⟨⟨byName, byType⟩, single⟩ := h
  cases category with
  | byName =>
    have none_left : children.byName = ∅ := Std.ExtTreeMap.isEmpty_iff.1 byName
    simp [get?, none_left]
  | byType => exact TypeIndex.get?_of_isEmpty byType segment
  | singleMatch => exact single

end ChildSet

/-- An element on which a function gives nothing can be left out. -/
theorem findSome?_filter_bne {α β : Type} [BEq α] [LawfulBEq α] {f : α → Option β} {x : α}
    (hx : f x = none) (xs : List α) :
    (xs.filter fun y => !y == x).findSome? f = xs.findSome? f := by
  induction xs with
  | nil => rfl
  | cons y xs ih =>
    rw [List.filter_cons, List.findSome?_cons]
    by_cases same : y = x
    · subst same
      simp [hx, ih]
    · have kept : (!y == x) = true := by simpa using same
      rw [if_pos kept, List.findSome?_cons, ih]

/-- Erasing duplicates does not change which value is found first. -/
theorem findSome?_eraseDups {α β : Type} [BEq α] [LawfulBEq α] (f : α → Option β) :
    ∀ xs : List α, xs.eraseDups.findSome? f = xs.findSome? f
  | [] => by simp
  | x :: xs => by
    rw [List.eraseDups_cons, List.findSome?_cons, List.findSome?_cons]
    cases hx : f x with
    | some b => rfl
    | none =>
      have rest := findSome?_eraseDups f (xs.filter fun y => !y == x)
      exact rest.trans (findSome?_filter_bne hx xs)
termination_by xs => xs.length
decreasing_by exact Nat.lt_succ_of_le (List.length_filter_le _ _)

/-- What is found among selected elements is found by selecting and looking in one go. -/
theorem findSome?_filterMap {α β γ : Type} (xs : List α) (g : α → Option β) (f : β → Option γ) :
    (xs.filterMap g).findSome? f = xs.findSome? fun x => (g x).bind f := by
  induction xs with
  | nil => rfl
  | cons x xs ih =>
    cases hx : g x with
    | none => simp [hx, ih]
    | some y => simp [hx, List.findSome?_cons, ih]

namespace Lookup

/-- The child for a type, or else for the nearest type in its ancestry that has one. -/
def nearest? (l : Lookup) (children : ChildSet) (type : Text) : Option NodeIndex :=
  (type :: l.hierarchy.ancestry type).findSome? children.byType.get?

/-- The child that a choice selects for a segment at the end of a path. By type it is the nearest
one for the type that is recorded at the path, if the segment names an instance, and for the segment
itself, if that names a type. -/
def chosen? (l : Lookup) (children : ChildSet) (consumed : List Text) (segment : Text) :
    Choice → Option NodeIndex
  | .exact => children.get? (Category.ofSegment segment) segment
  | .byType =>
    match Category.ofSegment segment with
    | .byName => (l.typeAt? (path consumed)).bind (l.nearest? children)
    | .byType => l.nearest? children segment
    | .singleMatch => none
  | .single => children.single.child

/-- The child selected by type is the nearest one for the type of the segment. -/
theorem chosen?_byType (l : Lookup) (children : ChildSet) (consumed : List Text)
    (segment : Text) :
    l.chosen? children consumed segment .byType =
      (l.typeOf? consumed segment).bind (l.nearest? children) := by
  rw [chosen?, typeOf?]
  cases Category.ofSegment segment <;> rfl

/-- The candidates are what the choices select, each child once. -/
theorem candidates_eq (l : Lookup) (children : ChildSet) (consumed : List Text)
    (segment : Text) :
    l.candidates children consumed segment =
      (Choice.all.filterMap (l.chosen? children consumed segment)).eraseDups := by
  have byType : l.typeChild? children consumed segment =
      l.chosen? children consumed segment .byType := by
    rw [typeChild?_eq, chosen?_byType]
    congr 1
    funext type
    exact TypeIndex.find?_eq_findSome? _ _ _
  rw [candidates, byType]
  rfl

/-- Where there are no children nothing is selected. -/
theorem chosen?_of_isEmpty (l : Lookup) {children : ChildSet} (h : children.isEmpty = true)
    (consumed : List Text) (segment : Text) (c : Choice) :
    l.chosen? children consumed segment c = none := by
  have byType (type : Text) : children.byType.get? type = none :=
    ChildSet.get?_of_isEmpty h .byType type
  cases c with
  | exact => exact ChildSet.get?_of_isEmpty h _ segment
  | byType =>
    rw [chosen?_byType, Option.bind_eq_none_iff]
    intro type _
    rw [nearest?, List.findSome?_eq_none_iff]
    exact fun name _ => byType name
  | single => exact ChildSet.get?_of_isEmpty h .singleMatch segment

/-- Where a search stands after a step to a child that takes the segment of an anchor. -/
def Position.after (p : Position) (a : Anchor) (child : NodeIndex) : Position :=
  ⟨child, p.consumed ++ a.consumed, a.tail⟩

/-- The first move among those that take the segment of an anchor, choice by choice. -/
theorem findSome?_movesAt {β : Type} (l : Lookup) (p : Position) (binding : Binding) (a : Anchor)
    (f : Position → Option β) :
    (l.movesAt p binding a).findSome? f =
      Choice.all.findSome? fun c =>
        (l.chosen? ((l.tree.node p.node).children binding) (p.consumed ++ a.consumed) a.head c).bind
          fun child => f (Position.after p a child) := by
  rw [movesAt, List.findSome?_map, candidates_eq, findSome?_eraseDups, findSome?_filterMap]
  rfl

/-- Before the end of the query a search finds what the first successful choice leads to: tightly
bound children before loosely bound ones, shorter skips before longer ones, and then the choices
in their order. -/
theorem findFrom_eq_choices (l : Lookup) {p : Position} (h : p.rest ≠ []) :
    l.findFrom p =
      Binding.all.findSome? fun binding => (Anchor.allowed binding p.rest).findSome? fun a =>
        Choice.all.findSome? fun c =>
          (l.chosen? ((l.tree.node p.node).children binding) (p.consumed ++ a.consumed) a.head
            c).bind fun child => l.findFrom (Position.after p a child) := by
  rw [findFrom_of_rest_ne_nil l h, moves, findSome?_flatMap]
  apply findSome?_congr
  intro binding _
  rw [findSome?_flatMap]
  simp only [findSome?_movesAt]
  rw [anchors]
  split
  · rename_i empty
    symm
    rw [List.findSome?_nil, List.findSome?_eq_none_iff]
    intro a _
    rw [List.findSome?_eq_none_iff]
    intro c _
    rw [chosen?_of_isEmpty l empty]
    rfl
  · rfl

end Lookup

end ResourceLookup
