import Mathlib.Tactic.ByContra
import ResourceLookup.Proofs.Lookup.Slices

/-!
# Search in slices

A search over the bytes of a query carries two slices through its calls, what is left of the query
and what is consumed, and puts the latter together again at each call. `Lookup.slicedFrom` is such a
search. It notes each call that it makes and each question that it asks about a registered object,
and it finds what `Lookup.findFrom` finds. Its calls are those of the positions that
`Lookup.findFrom` visits. In each of them the two slices join to the whole query, and so each
question is about a beginning of the query that ends with the segment to be matched.
-/

namespace ResourceLookup

/-- An element gets its turn when a list is gone through until something is found: nothing is found
on those before it. -/
inductive Tried {α β : Type} (f : α → Option β) (a : α) : List α → Prop
  | here {others : List α} : Tried f a (a :: others)
  | later {b : α} {others : List α} (failed : f b = none) (tried : Tried f a others) :
      Tried f a (b :: others)

namespace Tried

variable {α β γ : Type} {f : α → Option β} {a : α}

theorem mem {xs : List α} (h : Tried f a xs) : a ∈ xs := by
  induction h with
  | here => exact .head _
  | later _ _ ih => exact .tail _ ih

@[simp] theorem not_nil : ¬ Tried f a [] := fun h => List.not_mem_nil h.mem

theorem cons_iff {b : α} {xs : List α} :
    Tried f a (b :: xs) ↔ a = b ∨ f b = none ∧ Tried f a xs := by
  constructor
  · intro h
    cases h with
    | here => exact .inl rfl
    | later failed tried => exact .inr ⟨failed, tried⟩
  · rintro (rfl | ⟨failed, tried⟩)
    · exact .here
    · exact .later failed tried

theorem congr {g : α → Option β} {xs : List α} (h : ∀ x ∈ xs, f x = g x) :
    Tried f a xs ↔ Tried g a xs := by
  induction xs with
  | nil => simp
  | cons x xs ih =>
    obtain ⟨first, others⟩ := List.forall_mem_cons.1 h
    rw [cons_iff, cons_iff, first, ih others]

theorem append_iff {xs ys : List α} :
    Tried f a (xs ++ ys) ↔ Tried f a xs ∨ xs.findSome? f = none ∧ Tried f a ys := by
  induction xs with
  | nil => simp
  | cons x xs ih =>
    rw [List.cons_append, cons_iff, cons_iff, ih, List.findSome?_cons]
    cases f x <;> simp [or_assoc]

theorem flatMap_iff {g : γ → List α} {xs : List γ} :
    Tried f a (xs.flatMap g) ↔
      ∃ x, Tried (fun x => (g x).findSome? f) x xs ∧ Tried f a (g x) := by
  induction xs with
  | nil => simp
  | cons x xs ih =>
    simp only [List.flatMap_cons, append_iff, ih, cons_iff, or_and_right, exists_or,
      exists_eq_left, and_assoc, exists_and_left]

theorem map_iff {g : γ → α} {xs : List γ} :
    Tried f a (xs.map g) ↔ ∃ x, Tried (fun x => f (g x)) x xs ∧ a = g x := by
  induction xs with
  | nil => simp
  | cons x xs ih =>
    simp only [List.map_cons, ih, cons_iff, or_and_right, exists_or, exists_eq_left, and_assoc,
      exists_and_left]

end Tried

/-- A call of the search: a node, what is left of the query, if anything, and what is consumed. -/
structure Call where
  node : NodeIndex
  rest : Option Slice
  consumed : Slice
deriving DecidableEq, Repr

namespace Call

/-- What is consumed, joined with what is left. -/
def joined (c : Call) : Slice :=
  match c.rest with
  | none => c.consumed
  | some rest => Slice.join c.consumed rest

/-- A bound on how many segments are left. -/
def room (c : Call) : Nat := c.rest.elim 0 fun rest => rest.length + 1

/-- The call that continues a search from a position. -/
def ofPosition (p : Position) : Call :=
  ⟨p.node, Slice.ofRest? p.rest, Slice.ofSegments p.consumed⟩

end Call

/-- What a search does besides computing. -/
inductive Event where
  /-- It calls itself. -/
  | call (c : Call)
  /-- It asks for the type of the object registered at a path, in order to match a segment. -/
  | question (path segment : Slice)
deriving DecidableEq, Repr

/-- An outcome and the events on the way to it. -/
structure Traced (α : Type) where
  outcome : α
  events : List Event

namespace Traced

variable {α β γ : Type}

/-- An outcome without events. -/
def pure (outcome : α) : Traced α := ⟨outcome, []⟩

/-- The same outcome after one more event. -/
def after (event : Event) (run : Traced α) : Traced α := ⟨run.outcome, event :: run.events⟩

/-- Goes on with the outcome. -/
def bind (run : Traced α) (next : α → Traced β) : Traced β :=
  ⟨(next run.outcome).outcome, run.events ++ (next run.outcome).events⟩

/-- Makes one attempt after the other until one finds something. -/
def findSome? (attempt : α → Traced (Option β)) : List α → Traced (Option β)
  | [] => pure none
  | a :: others => (attempt a).bind fun
    | some found => pure (some found)
    | none => findSome? attempt others

theorem findSome?_map (attempt : β → Traced (Option γ)) (g : α → β) (items : List α) :
    findSome? attempt (items.map g) = findSome? (fun a => attempt (g a)) items := by
  induction items with
  | nil => rfl
  | cons a items ih =>
    rw [List.map_cons, findSome?, findSome?]
    simp only [ih]

theorem findSome?_congr {attempt attempt' : α → Traced (Option β)} {items : List α}
    (h : ∀ a ∈ items, attempt a = attempt' a) :
    findSome? attempt items = findSome? attempt' items := by
  induction items with
  | nil => rfl
  | cons a items ih =>
    obtain ⟨first, others⟩ := List.forall_mem_cons.1 h
    rw [findSome?, findSome?, first]
    simp only [ih others]

theorem outcome_findSome? (attempt : α → Traced (Option β)) (items : List α) :
    (findSome? attempt items).outcome = items.findSome? fun a => (attempt a).outcome := by
  induction items with
  | nil => rfl
  | cons a items ih =>
    rw [findSome?, bind, List.findSome?_cons]
    cases (attempt a).outcome with
    | some found => rfl
    | none => exact ih

/-- What happens when attempts are made one by one happens in one that gets its turn. -/
theorem mem_events_findSome?_iff {attempt : α → Traced (Option β)} {items : List α}
    {event : Event} :
    event ∈ (findSome? attempt items).events ↔
      ∃ a, Tried (fun a => (attempt a).outcome) a items ∧ event ∈ (attempt a).events := by
  induction items with
  | nil => simp [findSome?, pure]
  | cons a items ih =>
    simp only [Tried.cons_iff, or_and_right, exists_or, exists_eq_left, and_assoc, exists_and_left,
      ← ih]
    rw [findSome?, bind, List.mem_append]
    cases (attempt a).outcome <;> simp [pure]

/-- The outcome is as expected, and so is each of the events. -/
structure Meets (expected : Event → Prop) (outcome : α) (run : Traced α) : Prop where
  outcome_eq : run.outcome = outcome
  of_mem : ∀ event ∈ run.events, expected event

namespace Meets

variable {expected : Event → Prop} {a : α} {b : β}

theorem pure (expected : Event → Prop) (a : α) : Meets expected a (.pure a) :=
  ⟨rfl, fun _ listed => absurd listed List.not_mem_nil⟩

theorem after {event : Event} {run : Traced α} (h : expected event) (later : Meets expected a run) :
    Meets expected a (run.after event) :=
  ⟨later.outcome_eq, List.forall_mem_cons.2 ⟨h, later.of_mem⟩⟩

theorem bind {run : Traced α} {next : α → Traced β} (h : Meets expected a run)
    (later : Meets expected b (next a)) : Meets expected b (run.bind next) := by
  obtain ⟨rfl, events⟩ := h
  exact ⟨later.outcome_eq, List.forall_mem_append.2 ⟨events, later.of_mem⟩⟩

/-- If all attempts meet what is expected of them, then so does trying them one by one. -/
theorem findSome? {attempt : α → Traced (Option γ)} {f : α → Option γ} {items : List α}
    (h : ∀ x ∈ items, Meets expected (f x) (attempt x)) :
    Meets expected (items.findSome? f) (Traced.findSome? attempt items) := by
  induction items with
  | nil => exact pure expected none
  | cons x items ih =>
    obtain ⟨first, others⟩ := List.forall_mem_cons.1 h
    rw [List.findSome?_cons, Traced.findSome?]
    refine first.bind ?_
    cases f x with
    | some found => exact pure expected (some found)
    | none => exact ih others

end Meets

/-- A second run is the same as the first, provided that all events of the first are agreed on. -/
def Determines (agreed : Event → Prop) (run other : Traced α) : Prop :=
  (∀ event ∈ run.events, agreed event) → other = run

namespace Determines

variable {agreed : Event → Prop}

theorem refl (run : Traced α) : Determines agreed run run := fun _ => rfl

theorem after {event : Event} {run other : Traced α}
    (h : agreed event → Determines agreed run other) :
    Determines agreed (run.after event) (other.after event) := by
  intro agreement
  obtain ⟨first, later⟩ := List.forall_mem_cons.1 agreement
  rw [h first later]

theorem bind {run other : Traced α} {next next' : α → Traced β} (h : Determines agreed run other)
    (later : ∀ a, Determines agreed (next a) (next' a)) :
    Determines agreed (run.bind next) (other.bind next') := by
  intro agreement
  obtain ⟨first, second⟩ := List.forall_mem_append.1 agreement
  rw [h first, Traced.bind, Traced.bind, later _ second]

theorem findSome? {attempt attempt' : α → Traced (Option β)} (items : List α)
    (h : ∀ a, Determines agreed (attempt a) (attempt' a)) :
    Determines agreed (Traced.findSome? attempt items) (Traced.findSome? attempt' items) := by
  induction items with
  | nil => exact refl _
  | cons a items ih =>
    refine (h a).bind fun found => ?_
    cases found with
    | some found => exact refl _
    | none => exact ih

end Determines

end Traced

/-- The cuts of a slice that a binding allows. -/
def Cut.allowed : Binding → Slice → List Cut
  | .tight, rest =>
    let (head, tail) := Slice.splitHead rest
    [⟨head, tail, head⟩]
  | .loose, rest => (Cuts.start rest).toList

namespace Lookup

/-- The child that the segment at the end of a path selects by type. -/
def slicedTypeChild (l : Lookup) (children : ChildSet) (path segment : Slice) :
    Traced (Option NodeIndex) :=
  if children.byType.isEmpty then .pure none
  else
    match Category.ofSegment (Text.ofBytes segment) with
    | .byName =>
      .after (.question path segment) <| .pure <|
        (l.typeAt? (Text.ofBytes path)).bind (children.byType.find? l.hierarchy)
    | .byType => .pure (children.byType.find? l.hierarchy (Text.ofBytes segment))
    | .singleMatch => .pure none

/-- The children that accept the segment at the end of a path. -/
def slicedCandidates (l : Lookup) (children : ChildSet) (path segment : Slice) :
    Traced (List NodeIndex) :=
  let text := Text.ofBytes segment
  (l.slicedTypeChild children path segment).bind fun ofType => .pure
    ([children.get? (Category.ofSegment text) text, ofType, children.single.child].filterMap
      id).eraseDups

/-- The node at which the first way from a call to the end of the query arrives. -/
def slicedFrom (l : Lookup) (c : Call) : Traced (Option NodeIndex) :=
  .after (.call c) <|
    match c.rest with
    | none => .pure (some c.node)
    | some rest =>
      Traced.findSome? (fun binding =>
        let children := (l.tree.node c.node).children binding
        if children.isEmpty then .pure none
        else
          Traced.findSome? (fun cut =>
            let path := Slice.join c.consumed cut.consumed
            (l.slicedCandidates children path cut.head).bind <| Traced.findSome? fun child =>
              let next : Call := ⟨child, cut.tail, path⟩
              if _h : next.room < c.room then l.slicedFrom next else .pure none)
            (Cut.allowed binding rest))
        Binding.all
termination_by c.room

/-- The node that a query in UTF-8 resolves to. -/
def slicedFind (l : Lookup) (query : Slice) : Traced (Option NodeIndex) :=
  l.slicedFrom ⟨Tree.root, some query, []⟩

end Lookup

/-- An event of a search for a query. Each call has the whole query in its hands, and each question
is about a beginning of the query that ends with the segment to be matched. -/
def Event.KeepsTo (query : List Text) : Event → Prop
  | .call c => c.joined = Slice.ofSegments query
  | .question path segment => ∃ i piece, query[i]? = some piece ∧ segment = Text.utf8 piece ∧
      path = Slice.ofSegments (query.take (i + 1))

variable {before rest : List Text} {a : Anchor}

/-- The cuts of a query in UTF-8 are its anchors. -/
theorem Cut.allowed_ofSegments (binding : Binding) (nonempty : rest ≠ [])
    (plain : ∀ segment ∈ rest, '.' ∉ segment) :
    allowed binding (Slice.ofSegments rest) = (Anchor.allowed binding rest).map (ofAnchor []) := by
  cases binding with
  | loose => exact Cuts.toList_start nonempty plain
  | tight =>
    obtain ⟨segment, rest, rfl⟩ := List.exists_cons_of_ne_nil nonempty
    rw [allowed, Slice.splitHead_ofSegments (plain segment List.mem_cons_self)]
    simp [Anchor.next, ofAnchor, Anchor.consumed, Slice.ofSegments]

/-- What an anchor leaves is shorter than what it is taken from. -/
theorem Call.room_lt (h : a ∈ Anchor.all rest) (node node' : NodeIndex) (path path' : Slice) :
    room ⟨node, Slice.ofRest? a.tail, path⟩ < room ⟨node', Slice.ofRest? rest, path'⟩ := by
  have nonempty : rest ≠ [] := by
    rintro rfl
    exact absurd h List.not_mem_nil
  rw [Slice.ofRest?_of_ne_nil nonempty]
  by_cases last : a.tail = []
  · simp [room, last, Slice.ofRest?]
  · rw [Slice.ofRest?_of_ne_nil last, ← Anchor.consumed_append_tail h,
      Slice.ofSegments_append a.consumed last]
    have delimited : Text.utf8 (Lookup.opening a.consumed) ≠ [] := by
      rw [ne_eq, Text.utf8_eq_nil_iff]
      simp [Lookup.opening, Anchor.consumed]
    have := List.length_pos_iff.2 delimited
    simp only [room, Option.elim_some, List.length_append]
    omega

theorem head?_ne_of_append {segment : Text} (h : (before ++ rest).head? ≠ some segment) :
    before.head? ≠ some segment := by
  intro first
  rw [List.head?_append, first] at h
  exact h rfl

/-- At every position the two slices join to the whole query. -/
theorem Call.joined_ofPosition {p : Position} (first : (p.consumed ++ p.rest).head? ≠ some []) :
    (ofPosition p).joined = Slice.ofSegments (p.consumed ++ p.rest) := by
  obtain ⟨node, consumed, rest⟩ := p
  cases rest with
  | nil => rw [List.append_nil]; rfl
  | cons segment rest =>
    exact Slice.join_ofSegments (head?_ne_of_append first) (List.cons_ne_nil segment rest)

/-- No key starts with an empty segment. -/
theorem Key.head?_segments_ne (key : Key) : key.segments.head? ≠ some [] := by
  obtain ⟨nonempty, first, -⟩ := isValid_iff.1 key.isValid_text
  intro empty
  obtain ⟨others, segments⟩ := List.head?_eq_some_iff.1 empty
  have text : Lookup.path ([] :: others) = key.text := segments ▸ key.intercalate_segments
  by_cases alone : others = []
  · subst alone
    exact nonempty text.symm
  · rw [Lookup.path_cons [] alone] at text
    exact first (by rw [← text]; rfl)

/-- A position from which the query can be read back once it is written out: no segment has a
delimiter in it, and the first one is not empty. -/
structure Position.Legible (p : Position) : Prop where
  plain : ∀ segment ∈ p.consumed ++ p.rest, '.' ∉ segment
  first : (p.consumed ++ p.rest).head? ≠ some []

/-- A move leaves the query as it is. -/
theorem Position.Legible.of_mem_moves {l : Lookup} {p q : Position} (h : p.Legible)
    (hq : q ∈ l.moves p) : q.Legible := by
  have whole := Lookup.consumed_append_rest_of_mem_moves hq
  exact ⟨whole ▸ h.plain, whole ▸ h.first⟩

theorem Key.legible (key : Key) : Position.Legible ⟨Tree.root, [], key.segments⟩ :=
  ⟨fun _ piece => not_mem_of_mem_splitOn piece, key.head?_segments_ne⟩

/-- What an anchor consumes, together with what is before, ends with the segment that it takes. -/
theorem Event.keepsTo_question (before : List Text) (h : a ∈ Anchor.all rest) :
    KeepsTo (before ++ rest)
      (.question (Slice.ofSegments (before ++ a.consumed)) (Text.utf8 a.head)) := by
  have cut : before ++ rest = before ++ a.skipped ++ [a.head] ++ a.tail := by
    rw [← Anchor.consumed_append_tail h]
    simp [Anchor.consumed]
  refine ⟨(before ++ a.skipped).length, a.head, ?_, rfl, ?_⟩
  · rw [cut, List.append_assoc, List.getElem?_append_right (Nat.le_refl _), Nat.sub_self]
    rfl
  · rw [cut, List.take_left' (by simp [Nat.add_assoc]), Anchor.consumed, List.append_assoc]

namespace Lookup

variable (l : Lookup)

theorem meets_slicedTypeChild (children : ChildSet) (before : List Text) (h : a ∈ Anchor.all rest) :
    (l.slicedTypeChild children (Slice.ofSegments (before ++ a.consumed)) (Text.utf8 a.head)).Meets
      (Event.KeepsTo (before ++ rest)) (l.typeChild? children (before ++ a.consumed) a.head) := by
  rw [slicedTypeChild, typeChild?, Text.ofBytes_utf8]
  split
  · exact .pure _ _
  · rw [typeOf?]
    cases Category.ofSegment a.head with
    | byName =>
      simp only [Slice.ofSegments, Text.ofBytes_utf8]
      exact .after (Event.keepsTo_question before h) (.pure _ _)
    | byType => exact .pure _ _
    | singleMatch => exact .pure _ _

theorem meets_slicedCandidates (children : ChildSet) (before : List Text)
    (h : a ∈ Anchor.all rest) :
    (l.slicedCandidates children (Slice.ofSegments (before ++ a.consumed)) (Text.utf8 a.head)).Meets
      (Event.KeepsTo (before ++ rest)) (l.candidates children (before ++ a.consumed) a.head) := by
  rw [slicedCandidates, candidates, Text.ofBytes_utf8]
  exact (l.meets_slicedTypeChild children before h).bind (.pure _ _)

theorem not_call_mem_slicedCandidates (children : ChildSet) (path segment : Slice) (c : Call) :
    .call c ∉ (l.slicedCandidates children path segment).events := by
  rw [slicedCandidates, slicedTypeChild]
  split
  · simp [Traced.bind, Traced.pure]
  · split <;> simp [Traced.bind, Traced.pure, Traced.after]

/-- The positions that a search visits. From each it goes on to the moves that get their turn. -/
inductive Visits (l : Lookup) : Position → Position → Prop
  | arrive {p : Position} : Visits l p p
  | move {p q r : Position} (tried : Tried l.findFrom q (l.moves p)) (onward : Visits l q r) :
      Visits l p r

/-- The attempts to go on from a position to a child that takes the segment of an anchor. -/
def slicedAt (p : Position) (binding : Binding) (a : Anchor) : Traced (Option NodeIndex) :=
  (l.slicedCandidates ((l.tree.node p.node).children binding)
    (Slice.ofSegments (p.consumed ++ a.consumed)) (Text.utf8 a.head)).bind <|
      Traced.findSome? fun child =>
        l.slicedFrom (Call.ofPosition ⟨child, p.consumed ++ a.consumed, a.tail⟩)

section Position

variable {l : Lookup} {p q : Position}

/-- Before the end of the query the search in slices makes the attempts of its position. -/
theorem slicedFrom_ofPosition (h : p.Legible) (unfinished : p.rest ≠ []) :
    l.slicedFrom (Call.ofPosition p) = .after (.call (Call.ofPosition p))
      (Traced.findSome? (fun binding => Traced.findSome? (l.slicedAt p binding)
        (l.anchors p binding)) Binding.all) := by
  have left : (Call.ofPosition p).rest = some (Slice.ofSegments p.rest) :=
    Slice.ofRest?_of_ne_nil unfinished
  have plain : ∀ segment ∈ p.rest, '.' ∉ segment := fun segment listed =>
    h.plain segment (List.mem_append_right _ listed)
  rw [slicedFrom]
  simp only [left]
  refine congrArg (Traced.after _) (Traced.findSome?_congr fun binding _ => ?_)
  by_cases childless : ((l.tree.node p.node).children binding).isEmpty
  · simp only [Call.ofPosition, anchors, childless, if_true]
    rfl
  · simp only [Call.ofPosition, anchors, childless, Bool.false_eq_true, if_false]
    rw [Cut.allowed_ofSegments binding unfinished plain, Traced.findSome?_map]
    refine Traced.findSome?_congr fun a allowed => ?_
    have ha : a ∈ Anchor.all p.rest := Anchor.mem_all_of_mem_allowed allowed
    have path : Slice.join (Slice.ofSegments p.consumed) (Slice.ofSegments a.consumed) =
        Slice.ofSegments (p.consumed ++ a.consumed) :=
      Slice.join_ofSegments (head?_ne_of_append h.first) (by simp [Anchor.consumed])
    simp only [Cut.ofAnchor, List.nil_append, path]
    refine congrArg (Traced.bind _) (funext fun children => ?_)
    refine Traced.findSome?_congr fun child _ => ?_
    rw [dif_pos (Call.room_lt ha ..)]
    rfl

theorem meets_slicedAt {binding : Binding} {a : Anchor} (ha : a ∈ l.anchors p binding)
    (below : ∀ q ∈ l.moves p, (l.slicedFrom (Call.ofPosition q)).Meets
      (Event.KeepsTo (q.consumed ++ q.rest)) (l.findFrom q)) :
    (l.slicedAt p binding a).Meets (Event.KeepsTo (p.consumed ++ p.rest))
      ((l.movesAt p binding a).findSome? l.findFrom) := by
  have listing := l.meets_slicedCandidates ((l.tree.node p.node).children binding) p.consumed
    (mem_all_of_mem_anchors ha)
  rw [movesAt, List.findSome?_map]
  refine listing.bind (.findSome? fun child listed => ?_)
  -- A move takes segments from what is left to what is consumed, skipped ones included: the query
  -- as a whole stays the same, and so the next call keeps to the same one.
  have move := mem_moves_iff.2 ⟨binding, a, ha, List.mem_map_of_mem listed⟩
  exact consumed_append_rest_of_mem_moves move ▸ below _ move

/-- From every position on, the search in slices finds the same node and keeps to the query. -/
theorem meets_slicedFrom {p : Position} (h : p.Legible) :
    (l.slicedFrom (Call.ofPosition p)).Meets (Event.KeepsTo (p.consumed ++ p.rest))
      (l.findFrom p) := by
  by_cases arrived : p.rest = []
  · rw [slicedFrom, findFrom_of_rest_eq_nil l arrived]
    refine .after (Call.joined_ofPosition h.first) ?_
    simp only [Call.ofPosition, arrived, Slice.ofRest?]
    exact .pure _ _
  · rw [slicedFrom_ofPosition h arrived, findFrom_of_rest_ne_nil l arrived, moves,
      findSome?_flatMap]
    refine .after (Call.joined_ofPosition h.first) (.findSome? fun binding _ => ?_)
    rw [findSome?_flatMap]
    refine .findSome? fun a ha => meets_slicedAt ha fun q move => ?_
    have shorter := length_rest_lt_of_mem_moves move
    exact meets_slicedFrom (h.of_mem_moves move)
termination_by p.rest.length

theorem outcome_slicedAt (h : p.Legible) {binding : Binding} {a : Anchor}
    (ha : a ∈ l.anchors p binding) :
    (l.slicedAt p binding a).outcome = (l.movesAt p binding a).findSome? l.findFrom :=
  (meets_slicedAt ha fun _ move => meets_slicedFrom (h.of_mem_moves move)).outcome_eq

/-- The calls of the attempts with one anchor are the calls from the moves that get their turn. -/
theorem call_mem_slicedAt_iff (h : p.Legible) {binding : Binding} {a : Anchor} {c : Call}
    (ha : a ∈ l.anchors p binding) :
    .call c ∈ (l.slicedAt p binding a).events ↔
      ∃ q, Tried l.findFrom q (l.movesAt p binding a) ∧
        .call c ∈ (l.slicedFrom (Call.ofPosition q)).events := by
  have same_outcome (child : NodeIndex) (listed : child ∈ l.candidates
      ((l.tree.node p.node).children binding) (p.consumed ++ a.consumed) a.head) :
      (l.slicedFrom (Call.ofPosition ⟨child, p.consumed ++ a.consumed, a.tail⟩)).outcome =
        l.findFrom ⟨child, p.consumed ++ a.consumed, a.tail⟩ := by
    have move := mem_moves_iff.2 ⟨binding, a, ha, List.mem_map_of_mem listed⟩
    exact (meets_slicedFrom (h.of_mem_moves move)).outcome_eq
  have listing := l.meets_slicedCandidates ((l.tree.node p.node).children binding) p.consumed
    (mem_all_of_mem_anchors ha)
  have uncalled := l.not_call_mem_slicedCandidates ((l.tree.node p.node).children binding)
    (Slice.ofSegments (p.consumed ++ a.consumed)) (Text.utf8 a.head) c
  rw [slicedAt, Traced.bind, List.mem_append, listing.outcome_eq, or_iff_right uncalled,
    Traced.mem_events_findSome?_iff]
  simp only [Tried.congr same_outcome, movesAt, Tried.map_iff]
  constructor
  · rintro ⟨child, tried, made⟩
    exact ⟨_, ⟨child, tried, rfl⟩, made⟩
  · rintro ⟨_, ⟨child, tried, rfl⟩, made⟩
    exact ⟨child, tried, made⟩

/-- The calls of a search in slices from a position, one level unfolded: the call for the position,
and the calls from the moves that get their turn. -/
theorem call_mem_slicedFrom_iff (h : p.Legible) {c : Call} :
    .call c ∈ (l.slicedFrom (Call.ofPosition p)).events ↔
      c = Call.ofPosition p ∨ ∃ q, Tried l.findFrom q (l.moves p) ∧
        .call c ∈ (l.slicedFrom (Call.ofPosition q)).events := by
  by_cases arrived : p.rest = []
  · have stuck (q : Position) : ¬ Tried l.findFrom q (l.moves p) := by
      intro tried
      have shorter := length_rest_lt_of_mem_moves tried.mem
      simp [arrived] at shorter
    rw [slicedFrom]
    simp [stuck, Call.ofPosition, arrived, Slice.ofRest?, Traced.after, Traced.pure]
  · have turn (binding : Binding) (a : Anchor) :
        Tried (fun a => (l.slicedAt p binding a).outcome) a (l.anchors p binding) ↔
          Tried (fun a => (l.movesAt p binding a).findSome? l.findFrom) a (l.anchors p binding) :=
      Tried.congr fun a => outcome_slicedAt h
    have outcome (binding : Binding) :
        (Traced.findSome? (l.slicedAt p binding) (l.anchors p binding)).outcome =
          ((l.anchors p binding).flatMap (l.movesAt p binding)).findSome? l.findFrom := by
      rw [Traced.outcome_findSome?, findSome?_flatMap]
      exact findSome?_congr fun a => outcome_slicedAt h
    rw [slicedFrom_ofPosition h arrived]
    simp only [Traced.after, List.mem_cons, Event.call.injEq, Traced.mem_events_findSome?_iff,
      outcome, turn, moves, Tried.flatMap_iff]
    refine or_congr Iff.rfl ⟨?_, ?_⟩
    · rintro ⟨binding, triedBinding, a, triedAnchor, made⟩
      obtain ⟨q, tried, made⟩ := (call_mem_slicedAt_iff h triedAnchor.mem).1 made
      exact ⟨q, ⟨binding, triedBinding, a, triedAnchor, tried⟩, made⟩
    · rintro ⟨q, ⟨binding, triedBinding, a, triedAnchor, tried⟩, made⟩
      have called := (call_mem_slicedAt_iff h triedAnchor.mem).2 ⟨q, tried, made⟩
      exact ⟨binding, triedBinding, a, triedAnchor, called⟩

/-- The calls of a search in slices are those of the positions that the search visits. -/
theorem call_mem_slicedFrom_iff_visits {p : Position} (h : p.Legible) {c : Call} :
    .call c ∈ (l.slicedFrom (Call.ofPosition p)).events ↔
      ∃ q, l.Visits p q ∧ c = Call.ofPosition q := by
  have below {q : Position} (tried : Tried l.findFrom q (l.moves p)) :
      .call c ∈ (l.slicedFrom (Call.ofPosition q)).events ↔
        ∃ r, l.Visits q r ∧ c = Call.ofPosition r := by
    have shorter := length_rest_lt_of_mem_moves tried.mem
    exact call_mem_slicedFrom_iff_visits (h.of_mem_moves tried.mem)
  rw [call_mem_slicedFrom_iff h]
  constructor
  · rintro (rfl | ⟨q, tried, made⟩)
    · exact ⟨p, .arrive, rfl⟩
    · obtain ⟨r, onward, rfl⟩ := (below tried).1 made
      exact ⟨r, .move tried onward, rfl⟩
  · rintro ⟨r, visits, rfl⟩
    cases visits with
    | arrive => exact .inl rfl
    | move tried onward => exact .inr ⟨_, tried, (below tried).2 ⟨r, onward, rfl⟩⟩
termination_by p.rest.length

end Position

theorem slicedFind_eq (key : Key) :
    l.slicedFind (Text.utf8 key.text) =
      l.slicedFrom (Call.ofPosition ⟨Tree.root, [], key.segments⟩) := by
  have left : Slice.ofRest? key.segments = some (Text.utf8 key.text) := by
    rw [Slice.ofRest?_of_ne_nil key.segments_ne_nil, Slice.ofSegments, path,
      key.intercalate_segments]
  rw [slicedFind, Call.ofPosition, left]
  rfl

/-- A search for the text of a key finds the node of the key and keeps to the key. -/
theorem meets_slicedFind (key : Key) :
    (l.slicedFind (Text.utf8 key.text)).Meets (Event.KeepsTo key.segments) (l.find key) := by
  rw [slicedFind_eq]
  exact meets_slicedFrom key.legible

theorem call_mem_slicedFind_iff (key : Key) {c : Call} :
    .call c ∈ (l.slicedFind (Text.utf8 key.text)).events ↔
      ∃ p, l.Visits ⟨Tree.root, [], key.segments⟩ p ∧ c = Call.ofPosition p := by
  rw [slicedFind_eq]
  exact call_mem_slicedFrom_iff_visits key.legible

/-- Other types on record give the same answer to a question. -/
def SameAnswer (types : Text → Option Text) : Event → Prop
  | .call _ => True
  | .question path _ => types (Text.ofBytes path) = l.typeAt? (Text.ofBytes path)

theorem determines_slicedTypeChild (types : Text → Option Text) (children : ChildSet)
    (path segment : Slice) :
    Traced.Determines (l.SameAnswer types) (l.slicedTypeChild children path segment)
      ({ l with typeAt? := types }.slicedTypeChild children path segment) := by
  rw [slicedTypeChild, slicedTypeChild]
  split
  · exact .refl _
  · split
    · refine .after fun same => ?_
      rw [SameAnswer] at same
      simp only [same]
      exact .refl _
    · exact .refl _
    · exact .refl _

theorem determines_slicedCandidates (types : Text → Option Text) (children : ChildSet)
    (path segment : Slice) :
    Traced.Determines (l.SameAnswer types) (l.slicedCandidates children path segment)
      ({ l with typeAt? := types }.slicedCandidates children path segment) :=
  .bind (l.determines_slicedTypeChild types children path segment) fun _ => .refl _

/-- What types are on record matters only where it is asked for. -/
theorem determines_slicedFrom (types : Text → Option Text) (c : Call) :
    Traced.Determines (l.SameAnswer types) (l.slicedFrom c)
      ({ l with typeAt? := types }.slicedFrom c) := by
  rw [slicedFrom, slicedFrom]
  refine .after fun _ => ?_
  cases c.rest with
  | none => exact .refl _
  | some rest =>
    refine .findSome? _ fun binding => ?_
    dsimp only
    split
    · exact .refl _
    · refine .findSome? _ fun cut => ?_
      refine .bind (l.determines_slicedCandidates types _ _ _) fun children => ?_
      refine .findSome? children fun child => ?_
      split
      · exact determines_slicedFrom types _
      · exact .refl _
termination_by c.room

/-- The cuts of a text are its pieces in order. Each comes with the beginning of the text that it
ends and with the tail behind the delimiter, if there is one; together these are the text, and none
of them is cut inside a character. A search for a key in slices finds what a search for the key
finds, and it makes a call exactly for each position that the latter visits. In each call what is
consumed and what is left join to the key. Each question that it asks is about the beginning of the
key that ends with the segment to be matched, and what types are on record elsewhere has no
influence on it. -/
theorem slices_lose_nothing :
    (∀ t : Text,
      (Cuts.start (Text.utf8 t)).toList.length = (t.splitOn '.').length ∧
      ∀ i piece, (t.splitOn '.')[i]? = some piece →
        ∃ tail : Option Text,
          (Cuts.start (Text.utf8 t)).toList[i]? =
            some ⟨Text.utf8 piece, tail.map Text.utf8,
              Text.utf8 (path ((t.splitOn '.').take (i + 1)))⟩ ∧
          path ((t.splitOn '.').take (i + 1)) ++ tail.elim [] ('.' :: ·) = t) ∧
    ∀ (l : Lookup) (key : Key),
      let run := l.slicedFind (Text.utf8 key.text)
      run.outcome = l.find key ∧
      (∀ c, .call c ∈ run.events ↔
        ∃ p, l.Visits ⟨Tree.root, [], key.segments⟩ p ∧ c = Call.ofPosition p) ∧
      (∀ c, .call c ∈ run.events → c.joined = Text.utf8 key.text) ∧
      (∀ asked segment, .question asked segment ∈ run.events →
        ∃ i piece, key.segments[i]? = some piece ∧ segment = Text.utf8 piece ∧
          asked = Text.utf8 (path (key.segments.take (i + 1)))) ∧
      ∀ types : Text → Option Text,
        (∀ asked segment, .question asked segment ∈ run.events →
          types (Text.ofBytes asked) = l.typeAt? (Text.ofBytes asked)) →
        { l with typeAt? := types }.slicedFind (Text.utf8 key.text) = run := by
  refine ⟨fun t => ?_, fun l key => ?_⟩
  · exact ⟨Cuts.length_toList_utf8 t, fun i piece found => Cuts.exists_cut_of_piece found⟩
  · intro run
    obtain ⟨found, events⟩ := l.meets_slicedFind key
    refine ⟨found, fun _ => l.call_mem_slicedFind_iff key, fun c made => ?_,
      fun asked segment made => events _ made, ?_⟩
    · rw [events _ made, Slice.ofSegments, path, key.intercalate_segments]
    · intro types same
      refine l.determines_slicedFrom types _ fun event made => ?_
      cases event with
      | call c => trivial
      | question asked segment => exact same asked segment made

/-- A segment with a character of two bytes is taken by type, behind one that is passed over: it is
the second cut, and the question about it is asked, for without the answer nothing is found. -/
theorem slices_lose_nothing_behind_passed_segment :
    let pattern : Key := ⟨"*Button.size".toList, by decide +kernel, by decide +kernel⟩
    let types : Text → Option Text := fun path =>
      if path = "app.é".toList then some "Button".toList else none
    let l : Lookup := ⟨Tree.empty.insert pattern ['1'], ⟨fun type => [type]⟩, types⟩
    let key : Key := ⟨"app.é.size".toList, by decide +kernel, by decide +kernel⟩
    let run := l.slicedFind (Text.utf8 key.text)
    (∃ tail : Option Text,
      (Cuts.start (Text.utf8 key.text)).toList[1]? =
        some ⟨[0xC3, 0xA9], tail.map Text.utf8, Text.utf8 "app.é".toList⟩ ∧
      "app.é".toList ++ tail.elim [] ('.' :: ·) = key.text) ∧
    run.outcome = some 2 ∧
    ∃ asked segment, .question asked segment ∈ run.events ∧
      Text.ofBytes asked = "app.é".toList ∧
      ∃ i piece, key.segments[i]? = some piece ∧ segment = Text.utf8 piece ∧
        asked = Text.utf8 (path (key.segments.take (i + 1))) := by
  intro pattern types l key run
  obtain ⟨cuts, runs⟩ := slices_lose_nothing
  obtain ⟨found, -, -, questions, elsewhere⟩ := runs l key
  have arrived : l.find key = some 2 := by decide +kernel
  have lost : { l with typeAt? := fun _ => none }.find key = none := by decide +kernel
  refine ⟨(cuts key.text).2 1 ['é'] (by decide +kernel), found.trans arrived, ?_⟩
  by_contra unasked
  have same : { l with typeAt? := fun _ => none }.slicedFind (Text.utf8 key.text) = run := by
    refine elsewhere _ fun asked segment made => ?_
    by_contra differ
    have typed : Text.ofBytes asked = "app.é".toList := by
      by_contra other
      exact differ (if_neg other).symm
    exact unasked ⟨asked, segment, made, typed, questions asked segment made⟩
  have outcome := (runs { l with typeAt? := fun _ => none } key).1
  rw [same, found, arrived, lost] at outcome
  cases outcome

end Lookup

end ResourceLookup
