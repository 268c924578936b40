import ResourceLookup.Lookup.Anchor
import ResourceLookup.Tree.Basic

/-!
# Search

A search looks for the node that a query resolves to. It stands at a node with some segments of
the query consumed, and it moves on to a child that accepts one of the segments left: tightly
bound children are tried on the next segment, and then loosely bound ones on each segment that
is left, those that skip less first. Among the children with one binding the candidates are, in
this order, the one for exactly this segment, the nearest one for its type, and the one for `?`.

The search backtracks: the first way that consumes the whole query wins, in the order in which
the moves are listed.
-/

namespace ResourceLookup

/-- Everything that a search consults. -/
structure Lookup where
  tree : Tree
  hierarchy : Hierarchy
  /-- The type recorded for the object registered at a path of segments. -/
  typeAt? : Text → Option Text

/-- Where a search stands: at a node, with the segments consumed on the way and those left. -/
structure Position where
  node : NodeIndex
  consumed : List Text
  rest : List Text
deriving DecidableEq, Repr

namespace Lookup

/-- The text of consumed segments, under which an object may be registered. -/
def path (consumed : List Text) : Text := [Binding.tight.delimiter].intercalate consumed

/-- The type that a segment at the end of a path stands for: the one recorded at the path if the
segment names an instance, and its own text if it names a type. -/
def typeOf? (l : Lookup) (consumed : List Text) (segment : Text) : Option Text :=
  match Category.ofSegment segment with
  | .byName => l.typeAt? (path consumed)
  | .byType => some segment
  | .singleMatch => none

/-- The child that a segment at the end of a path selects by type. Where no child stands for a
type the type of the segment is not asked for. -/
def typeChild? (l : Lookup) (children : ChildSet) (consumed : List Text) (segment : Text) :
    Option NodeIndex :=
  if children.byType.isEmpty then none
  else (l.typeOf? consumed segment).bind (children.byType.find? l.hierarchy)

/-- The children that accept a segment at the end of a path, each once, in the order in which
they are tried. -/
def candidates (l : Lookup) (children : ChildSet) (consumed : List Text) (segment : Text) :
    List NodeIndex :=
  ([children.get? (Category.ofSegment segment) segment,
    l.typeChild? children consumed segment,
    children.single.child].filterMap id).eraseDups

/-- The moves to children with the given binding that take the segment of an anchor. -/
def movesAt (l : Lookup) (p : Position) (binding : Binding) (a : Anchor) : List Position :=
  let consumed := p.consumed ++ a.consumed
  (l.candidates ((l.tree.node p.node).children binding) consumed a.head).map
    fun child => ⟨child, consumed, a.tail⟩

/-- The anchors that a position offers to its children with the given binding, if there are any.
-/
def anchors (l : Lookup) (p : Position) (binding : Binding) : List Anchor :=
  if ((l.tree.node p.node).children binding).isEmpty then [] else Anchor.allowed binding p.rest

/-- All moves from a position, in the order in which they are tried. -/
def moves (l : Lookup) (p : Position) : List Position :=
  Binding.all.flatMap fun binding => (l.anchors p binding).flatMap (l.movesAt p binding)

/-- The node at which the first way from a position to the end of the query arrives. -/
def findFrom (l : Lookup) (p : Position) : Option NodeIndex :=
  if p.rest.isEmpty then some p.node
  else
    Binding.all.findSome? fun binding => (l.anchors p binding).findSome? fun a =>
      (l.movesAt p binding a).findSome? fun q =>
        if _h : q.rest.length < p.rest.length then l.findFrom q else none
termination_by p.rest.length

/-- The node that a query resolves to. It need not hold anything. -/
def find (l : Lookup) (key : Key) : Option NodeIndex :=
  l.findFrom ⟨Tree.root, [], key.segments⟩

/-- A type child is the nearest child for the type of the segment. -/
theorem typeChild?_eq (l : Lookup) (children : ChildSet) (consumed : List Text) (segment : Text) :
    l.typeChild? children consumed segment =
      (l.typeOf? consumed segment).bind (children.byType.find? l.hierarchy) := by
  unfold typeChild?
  split
  · rename_i empty
    cases l.typeOf? consumed segment <;> simp [TypeIndex.find?, empty]
  · rfl

/-- The moves from a position take one of its anchors. -/
theorem mem_moves_iff {l : Lookup} {p q : Position} :
    q ∈ l.moves p ↔ ∃ binding, ∃ a ∈ l.anchors p binding, q ∈ l.movesAt p binding a := by
  simp [moves, Binding.mem_all]

theorem mem_all_of_mem_anchors {l : Lookup} {p : Position} {binding : Binding} {a : Anchor}
    (h : a ∈ l.anchors p binding) : a ∈ Anchor.all p.rest := by
  unfold anchors at h
  split at h
  · simp at h
  · exact Anchor.mem_all_of_mem_allowed h

/-- Every move takes some anchor of what is left of the query. -/
theorem exists_anchor_of_mem_moves {l : Lookup} {p q : Position} (h : q ∈ l.moves p) :
    ∃ a ∈ Anchor.all p.rest, q.consumed = p.consumed ++ a.consumed ∧ q.rest = a.tail := by
  obtain ⟨binding, a, ha, hq⟩ := mem_moves_iff.1 h
  obtain ⟨child, _, rfl⟩ := List.mem_map.1 hq
  exact ⟨a, mem_all_of_mem_anchors ha, rfl, rfl⟩

/-- A move loses nothing of the query. -/
theorem consumed_append_rest_of_mem_moves {l : Lookup} {p q : Position} (h : q ∈ l.moves p) :
    q.consumed ++ q.rest = p.consumed ++ p.rest := by
  obtain ⟨a, ha, consumed, rest⟩ := exists_anchor_of_mem_moves h
  rw [consumed, rest, List.append_assoc, Anchor.consumed_append_tail ha]

/-- A move leaves less of the query. -/
theorem length_rest_lt_of_mem_moves {l : Lookup} {p q : Position} (h : q ∈ l.moves p) :
    q.rest.length < p.rest.length := by
  obtain ⟨a, ha, _, rest⟩ := exists_anchor_of_mem_moves h
  rw [rest]
  exact Anchor.length_tail_lt ha

/-- At the end of the query the search has arrived. -/
theorem findFrom_of_rest_eq_nil (l : Lookup) {p : Position} (h : p.rest = []) :
    l.findFrom p = some p.node := by
  rw [findFrom]
  simp [h]

theorem findSome?_congr {α β : Type} {xs : List α} {f g : α → Option β}
    (h : ∀ x ∈ xs, f x = g x) : xs.findSome? f = xs.findSome? g := by
  induction xs with
  | nil => rfl
  | cons x xs ih =>
    rw [List.findSome?_cons, List.findSome?_cons, h x List.mem_cons_self,
      ih fun y hy => h y (List.mem_cons_of_mem _ hy)]

theorem findSome?_flatMap {α β γ : Type} (xs : List α) (f : α → List β)
    (g : β → Option γ) :
    (xs.flatMap f).findSome? g = xs.findSome? fun x => (f x).findSome? g := by
  induction xs with
  | nil => rfl
  | cons x xs ih =>
    rw [List.flatMap_cons, List.findSome?_append, ih, List.findSome?_cons]
    cases (f x).findSome? g <;> rfl

/-- Before the end of the query the first move decides that leads to it. -/
theorem findFrom_of_rest_ne_nil (l : Lookup) {p : Position} (h : p.rest ≠ []) :
    l.findFrom p = (l.moves p).findSome? l.findFrom := by
  rw [findFrom, moves, findSome?_flatMap]
  simp only [List.isEmpty_iff, h, if_false]
  refine findSome?_congr fun binding _ => ?_
  rw [findSome?_flatMap]
  refine findSome?_congr fun a ha => findSome?_congr fun q hq => ?_
  have shorter := length_rest_lt_of_mem_moves (mem_moves_iff.2 ⟨binding, a, ha, hq⟩)
  simp [shorter]

end Lookup

end ResourceLookup
