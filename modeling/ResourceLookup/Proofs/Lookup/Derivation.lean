import Mathlib.Data.List.Lex
import ResourceLookup.Proofs.Lookup.Choice

/-!
# Derivations

A derivation is one way to match a query against the tree: a list of picks that lead from a node to
a node and consume the query on the way. A pick says with which binding the next child is bound,
which segment of the query it takes, and by which choice it is selected. Derivations are compared
pick by pick: tight before loose, then the smaller anchor, then the choices in their order.

The search is depth first and gives up as soon as it has found something, so it never looks at most
derivations. `find_eq_some_iff_least` says that nevertheless it arrives where the least of all of
them ends, and that it finds nothing only where there is none.
-/

namespace ResourceLookup

/-- A step of a derivation. -/
structure Pick where
  /-- How the child is bound. -/
  binding : Binding
  /-- The place in the query of the segment that the child takes, counted from one. This is also
  how many segments are consumed after the step. -/
  anchor : Nat
  /-- How the child is selected. -/
  choice : Choice
deriving DecidableEq, Repr

namespace Pick

/-- Whether a pick can be made when `consumed` out of `count` segments are consumed. A tight child
takes the next segment and a loose one any later segment as well. -/
def Allowed (pick : Pick) (consumed count : Nat) : Prop :=
  match pick.binding with
  | .tight => pick.anchor = consumed + 1 ∧ pick.anchor ≤ count
  | .loose => consumed < pick.anchor ∧ pick.anchor ≤ count

instance (consumed count : Nat) : (pick : Pick) → Decidable (pick.Allowed consumed count)
  | ⟨.tight, _, _⟩ => inferInstanceAs (Decidable (_ ∧ _))
  | ⟨.loose, _, _⟩ => inferInstanceAs (Decidable (_ ∧ _))

/-- The order in which a search makes picks. -/
def Before (p q : Pick) : Prop :=
  p.binding.index < q.binding.index ∨
    p.binding = q.binding ∧
      (p.anchor < q.anchor ∨ p.anchor = q.anchor ∧ p.choice.rank < q.choice.rank)

instance : Std.Asymm Before where
  asymm p q first second := by
    obtain first | ⟨binding, first⟩ := first
    · obtain second | ⟨binding, _⟩ := second
      · omega
      · rw [binding] at first
        omega
    · obtain second | ⟨_, second⟩ := second
      · rw [binding] at second
        omega
      · omega

theorem Allowed.consumed_lt {pick : Pick} {consumed count : Nat}
    (h : pick.Allowed consumed count) : consumed < pick.anchor := by
  rw [Allowed] at h
  split at h <;> omega

theorem Allowed.anchor_le {pick : Pick} {consumed count : Nat}
    (h : pick.Allowed consumed count) : pick.anchor ≤ count := by
  rw [Allowed] at h
  split at h <;> omega

/-- The segments that a child with the given binding may take. -/
def anchors (consumed count : Nat) : Binding → List Nat
  | .tight => if consumed < count then [consumed + 1] else []
  | .loose => List.range' (consumed + 1) (count - consumed)

/-- All picks that can be made, in their order. -/
def all (consumed count : Nat) : List Pick :=
  Binding.all.flatMap fun binding => (anchors consumed count binding).flatMap fun anchor =>
    Choice.all.map fun choice => ⟨binding, anchor, choice⟩

theorem mem_anchors_iff {consumed count anchor : Nat} {binding : Binding} (choice : Choice) :
    anchor ∈ anchors consumed count binding ↔
      (⟨binding, anchor, choice⟩ : Pick).Allowed consumed count := by
  cases binding with
  | tight =>
    simp only [anchors, Allowed]
    split <;> simp <;> omega
  | loose =>
    simp only [anchors, Allowed, List.mem_range'_1]
    omega

theorem mem_all_iff {pick : Pick} {consumed count : Nat} :
    pick ∈ all consumed count ↔ pick.Allowed consumed count := by
  obtain ⟨binding, anchor, choice⟩ := pick
  rw [← mem_anchors_iff choice]
  simp only [all, List.mem_flatMap, List.mem_map, Pick.mk.injEq]
  constructor
  · rintro ⟨_, _, _, member, _, _, rfl, rfl, rfl⟩
    exact member
  · intro member
    exact ⟨binding, Binding.mem_all binding, anchor, member, choice, Choice.mem_all choice, rfl,
      rfl, rfl⟩

theorem pairwise_anchors (consumed count : Nat) (binding : Binding) :
    (anchors consumed count binding).Pairwise (· < ·) := by
  cases binding with
  | tight =>
    simp only [anchors]
    split <;> simp
  | loose => exact List.pairwise_lt_range' 1

/-- The picks are listed in their order. -/
theorem pairwise_all (consumed count : Nat) : (all consumed count).Pairwise Before := by
  have choices (binding : Binding) (anchor : Nat) :
      (Choice.all.map fun choice => (⟨binding, anchor, choice⟩ : Pick)).Pairwise Before := by
    rw [List.pairwise_map]
    simp [Choice.all, Before, Choice.rank]
  have anchored (binding : Binding) :
      ((anchors consumed count binding).flatMap fun anchor =>
        Choice.all.map fun choice => (⟨binding, anchor, choice⟩ : Pick)).Pairwise Before := by
    rw [List.pairwise_flatMap]
    refine ⟨fun anchor _ => choices binding anchor, ?_⟩
    refine (pairwise_anchors consumed count binding).imp ?_
    intro first second smaller p hp q hq
    obtain ⟨_, _, rfl⟩ := List.mem_map.1 hp
    obtain ⟨_, _, rfl⟩ := List.mem_map.1 hq
    exact .inr ⟨rfl, .inl smaller⟩
  have bound (binding : Binding) (p : Pick) (hp : p ∈ (anchors consumed count binding).flatMap
      fun anchor => Choice.all.map fun choice => (⟨binding, anchor, choice⟩ : Pick)) :
      p.binding = binding := by
    obtain ⟨_, _, hp⟩ := List.mem_flatMap.1 hp
    obtain ⟨_, _, rfl⟩ := List.mem_map.1 hp
    rfl
  rw [all, List.pairwise_flatMap]
  refine ⟨fun binding _ => anchored binding, ?_⟩
  simp only [Binding.all, List.pairwise_cons, List.mem_singleton, forall_eq, List.not_mem_nil,
    IsEmpty.forall_iff, implies_true, List.Pairwise.nil, and_true]
  intro p hp q hq
  left
  rw [bound .tight p hp, bound .loose q hq]
  decide

end Pick

/-- Where a search stands at a node when the first `consumed` segments of a query are consumed. -/
def Position.at (query : List Text) (node : NodeIndex) (consumed : Nat) : Position :=
  ⟨node, query.take consumed, query.drop consumed⟩

namespace Lookup

/-- The child that a pick leads to. -/
def follow? (l : Lookup) (query : List Text) (node : NodeIndex) (pick : Pick) :
    Option NodeIndex :=
  query[pick.anchor - 1]?.bind fun segment =>
    l.chosen? ((l.tree.node node).children pick.binding) (query.take pick.anchor) segment
      pick.choice

/-- The picks that lead from a node, where the first segments of a query are consumed, to a node
where all of them are. -/
inductive Derives (l : Lookup) (query : List Text) :
    NodeIndex → Nat → List Pick → NodeIndex → Prop
  | done {node : NodeIndex} : Derives l query node query.length [] node
  | step {node child target : NodeIndex} {consumed : Nat} {pick : Pick} {picks : List Pick}
      (allowed : pick.Allowed consumed query.length)
      (follow : l.follow? query node pick = some child)
      (rest : Derives l query child pick.anchor picks target) :
      Derives l query node consumed (pick :: picks) target

/-- A derivation that comes before all others from the same node. -/
def LeastDerivation (l : Lookup) (query : List Text) (node : NodeIndex) (consumed : Nat)
    (picks : List Pick) (target : NodeIndex) : Prop :=
  l.Derives query node consumed picks target ∧
    ∀ others other, l.Derives query node consumed others other →
      others = picks ∨ List.Lex Pick.Before picks others

section Anchors

variable {β : Type} (f : List Text → Text → List Text → Option β)

/-- What is found at one of the anchors of the rest of a query, told by the place of the segment in
the whole query. -/
theorem findSome?_anchors (before rest : List Text) :
    ((Anchor.all rest).findSome? fun a => f (before ++ a.consumed) a.head a.tail) =
      (List.range' (before.length + 1) rest.length).findSome? fun anchor =>
        (before ++ rest)[anchor - 1]?.bind fun segment =>
          f ((before ++ rest).take anchor) segment ((before ++ rest).drop anchor) := by
  induction rest generalizing before with
  | nil => rfl
  | cons segment rest ih =>
    have later := ih (before ++ [segment])
    simp only [List.length_append, List.length_singleton, List.append_assoc,
      List.singleton_append] at later
    rw [Anchor.all, List.length_cons, List.range'_succ, List.findSome?_cons,
      List.findSome?_cons, List.findSome?_map]
    have here : (before ++ segment :: rest)[before.length + 1 - 1]? = some segment := by simp
    have taken : (before ++ segment :: rest).take (before.length + 1) = before ++ [segment] :=
      List.take_length_add_append 1
    have left : (before ++ segment :: rest).drop (before.length + 1) = rest :=
      List.drop_length_add_append 1
    rw [here, Option.bind_some, taken, left, ← later]
    simp [Anchor.consumed, Anchor.skip, Function.comp_def]

theorem findSome?_allowed (binding : Binding) {query : List Text} {consumed : Nat}
    (h : consumed < query.length) :
    ((Anchor.allowed binding (query.drop consumed)).findSome? fun a =>
        f (query.take consumed ++ a.consumed) a.head a.tail) =
      (Pick.anchors consumed query.length binding).findSome? fun anchor =>
        query[anchor - 1]?.bind fun segment =>
          f (query.take anchor) segment (query.drop anchor) := by
  cases binding with
  | tight =>
    obtain ⟨segment, rest, cut⟩ := List.exists_cons_of_ne_nil
      (show query.drop consumed ≠ [] by simpa using h)
    have here : query[consumed] = segment := by
      have first : query[consumed]? = some segment := by
        rw [← List.head?_drop, cut, List.head?_cons]
      exact Option.some.inj ((List.getElem?_eq_getElem h).symm.trans first)
    have taken : query.take (consumed + 1) = query.take consumed ++ [segment] := by
      rw [List.take_add_one, List.getElem?_eq_getElem h, here, Option.toList_some]
    have left : query.drop (consumed + 1) = rest := by
      rw [← List.drop_drop, cut, List.drop_one, List.tail_cons]
    simp [Anchor.next, Pick.anchors, h, cut, here, taken, left, Anchor.consumed]
  | loose =>
    have cut := findSome?_anchors f (query.take consumed) (query.drop consumed)
    rw [List.take_append_drop, List.length_take, List.length_drop, Nat.min_eq_left h.le] at cut
    exact cut

end Anchors

/-- Before the end of a query a search finds what the first successful pick leads to. -/
theorem findFrom_eq_picks (l : Lookup) {query : List Text} (node : NodeIndex) {consumed : Nat}
    (h : consumed < query.length) :
    l.findFrom (Position.at query node consumed) =
      (Pick.all consumed query.length).findSome? fun pick =>
        (l.follow? query node pick).bind fun child =>
          l.findFrom (Position.at query child pick.anchor) := by
  have unfinished : (Position.at query node consumed).rest ≠ [] := by
    simpa [Position.at] using h
  rw [findFrom_eq_choices l unfinished, Pick.all, findSome?_flatMap]
  apply findSome?_congr
  intro binding _
  rw [findSome?_flatMap]
  have anchored := findSome?_allowed (fun path segment tail => Choice.all.findSome? fun c =>
    (l.chosen? ((l.tree.node node).children binding) path segment c).bind fun child =>
      l.findFrom ⟨child, path, tail⟩) binding h
  apply Eq.trans anchored
  apply findSome?_congr
  intro anchor _
  rw [List.findSome?_map]
  simp only [follow?]
  cases segment : query[anchor - 1]? with
  | none => simp [Function.comp_def, segment, Choice.all]
  | some segment => simp [Function.comp_def, Position.at, *]

/-- A derivation starts with a pick unless the whole query is consumed. -/
theorem Derives.cases_pick {l : Lookup} {query : List Text} {node target : NodeIndex}
    {consumed : Nat} {picks : List Pick} (h : l.Derives query node consumed picks target)
    (unfinished : consumed < query.length) :
    ∃ pick rest child, picks = pick :: rest ∧ pick.Allowed consumed query.length ∧
      l.follow? query node pick = some child ∧ l.Derives query child pick.anchor rest target := by
  cases h with
  | done => omega
  | step allowed follow rest => exact ⟨_, _, _, rfl, allowed, follow, rest⟩

/-- Once the whole query is consumed there is nothing left to pick. -/
theorem Derives.eq_nil {l : Lookup} {query : List Text} {node target : NodeIndex}
    {picks : List Pick} (h : l.Derives query node query.length picks target) :
    picks = [] ∧ target = node := by
  cases h with
  | done => exact ⟨rfl, rfl⟩
  | step allowed _ _ =>
    have beyond := allowed.consumed_lt
    have within := allowed.anchor_le
    omega

/-- The picks of a derivation determine where it ends. -/
theorem Derives.target_unique {l : Lookup} {query : List Text} {node target other : NodeIndex}
    {consumed : Nat} {picks : List Pick} (h : l.Derives query node consumed picks target)
    (h' : l.Derives query node consumed picks other) : target = other := by
  induction h with
  | done => exact h'.eq_nil.2.symm
  | step _ follow _ ih =>
    cases h' with
    | step _ follow' rest =>
      obtain rfl := Option.some.inj (follow.symm.trans follow')
      exact ih rest

/-- Where picks lead from a node, if they are a derivation. -/
def target? (l : Lookup) (query : List Text) : NodeIndex → Nat → List Pick → Option NodeIndex
  | node, consumed, [] => if consumed = query.length then some node else none
  | node, consumed, pick :: picks =>
    if pick.Allowed consumed query.length then
      (l.follow? query node pick).bind fun child => l.target? query child pick.anchor picks
    else none

theorem derives_iff {l : Lookup} {query : List Text} {node target : NodeIndex} {consumed : Nat}
    {picks : List Pick} :
    l.Derives query node consumed picks target ↔
      l.target? query node consumed picks = some target := by
  constructor
  · intro h
    induction h with
    | done => simp [target?]
    | step allowed follow _ ih => simp [target?, allowed, follow, ih]
  · intro h
    induction picks generalizing node consumed with
    | nil =>
      rw [target?, Option.ite_none_right_eq_some] at h
      obtain ⟨rfl, same⟩ := h
      obtain rfl := Option.some.inj same
      exact .done
    | cons pick picks ih =>
      rw [target?, Option.ite_none_right_eq_some, Option.bind_eq_some_iff] at h
      obtain ⟨allowed, child, follow, rest⟩ := h
      exact .step allowed follow (ih rest)

instance (l : Lookup) (query : List Text) (node : NodeIndex) (consumed : Nat) (picks : List Pick)
    (target : NodeIndex) : Decidable (l.Derives query node consumed picks target) :=
  decidable_of_iff _ derives_iff.symm

/-- A pick goes before a least derivation if no earlier pick leads to a derivation. -/
theorem LeastDerivation.cons {l : Lookup} {query : List Text} {node child target : NodeIndex}
    {consumed : Nat} {pick : Pick} {picks : List Pick} {before after : List Pick}
    (h : l.LeastDerivation query child pick.anchor picks target)
    (unfinished : consumed < query.length)
    (listed : Pick.all consumed query.length = before ++ pick :: after)
    (follow : l.follow? query node pick = some child)
    (passed : ∀ earlier ∈ before, ∀ child', l.follow? query node earlier = some child' →
      ∀ rest other, ¬ l.Derives query child' earlier.anchor rest other) :
    l.LeastDerivation query node consumed (pick :: picks) target := by
  have allowed : pick.Allowed consumed query.length := by
    rw [← Pick.mem_all_iff, listed]
    simp
  refine ⟨.step allowed follow h.1, ?_⟩
  intro others other derives
  obtain ⟨pick', rest, child', rfl, allowed', follow', derives⟩ := derives.cases_pick unfinished
  have member : pick' ∈ Pick.all consumed query.length := Pick.mem_all_iff.2 allowed'
  rw [listed, List.mem_append, List.mem_cons] at member
  obtain earlier | rfl | later := member
  · exact absurd derives (passed pick' earlier child' follow' rest other)
  · obtain rfl := Option.some.inj (follow.symm.trans follow')
    obtain rfl | behind := h.2 rest other derives
    · exact .inl rfl
    · exact .inr (.cons behind)
  · have ordered := Pick.pairwise_all consumed query.length
    rw [listed, List.pairwise_append, List.pairwise_cons] at ordered
    exact .inr (.rel (ordered.2.1.1 pick' later))

/-- A search that stands somewhere in a query arrives at the end of the least derivation from there;
where it finds nothing there is no derivation. The induction is on what is left of the query. -/
theorem findFrom_least (l : Lookup) (query : List Text) (node : NodeIndex) {consumed : Nat}
    (h : consumed ≤ query.length) :
    match l.findFrom (Position.at query node consumed) with
    | some target => ∃ picks, l.LeastDerivation query node consumed picks target
    | none => ∀ picks target, ¬ l.Derives query node consumed picks target := by
  induction left : query.length - consumed using Nat.strongRecOn generalizing node consumed with
  | ind left ih =>
    obtain finished | unfinished := Nat.eq_or_lt_of_le h
    · subst finished
      rw [findFrom_of_rest_eq_nil l (by simp [Position.at])]
      exact ⟨[], .done, fun others other derives => .inl derives.eq_nil.1⟩
    have next {pick : Pick} (listed : pick ∈ Pick.all consumed query.length) (child : NodeIndex) :=
      have allowed := Pick.mem_all_iff.1 listed
      have more := allowed.consumed_lt
      have within := allowed.anchor_le
      ih (query.length - pick.anchor) (by omega) child within rfl
    -- A pick that the search passes over leads to no derivation.
    have passed {pick : Pick} (listed : pick ∈ Pick.all consumed query.length)
        (nothing : ((l.follow? query node pick).bind fun child =>
          l.findFrom (Position.at query child pick.anchor)) = none)
        (child : NodeIndex) (follow : l.follow? query node pick = some child)
        (rest : List Pick) (target : NodeIndex) :
        ¬ l.Derives query child pick.anchor rest target := by
      have below := next listed child
      rw [follow, Option.bind_some] at nothing
      rw [nothing] at below
      exact below rest target
    rw [findFrom_eq_picks l node unfinished]
    split
    · rename_i target found
      obtain ⟨before, pick, after, listed, arrived, failed⟩ :=
        List.findSome?_eq_some_iff.1 found
      obtain ⟨child, follow, below⟩ := Option.bind_eq_some_iff.1 arrived
      have member : pick ∈ Pick.all consumed query.length := by simp [listed]
      have least := next member child
      rw [below] at least
      obtain ⟨picks, least⟩ := least
      refine ⟨pick :: picks, least.cons unfinished listed follow ?_⟩
      intro earlier hb
      exact passed (by simp [listed, hb]) (failed earlier hb)
    · rename_i nothing
      rw [List.findSome?_eq_none_iff] at nothing
      intro picks target derives
      obtain ⟨pick, rest, child, rfl, allowed, follow, derives⟩ := derives.cases_pick unfinished
      have listed := Pick.mem_all_iff.2 allowed
      exact passed listed (nothing pick listed) child follow rest target derives

section Outcome

variable {l : Lookup} {query : List Text} {node target : NodeIndex} {consumed : Nat}

/-- What a search finds it finds by the least derivation. -/
theorem exists_least_of_findFrom (h : consumed ≤ query.length)
    (found : l.findFrom (Position.at query node consumed) = some target) :
    ∃ picks, l.LeastDerivation query node consumed picks target := by
  have least := l.findFrom_least query node h
  rwa [found] at least

theorem findFrom_eq_none_iff (h : consumed ≤ query.length) :
    l.findFrom (Position.at query node consumed) = none ↔
      ∀ picks target, ¬ l.Derives query node consumed picks target := by
  constructor
  · intro nothing
    have search := l.findFrom_least query node h
    rwa [nothing] at search
  · intro underivable
    cases found : l.findFrom (Position.at query node consumed) with
    | none => rfl
    | some target =>
      obtain ⟨picks, least⟩ := exists_least_of_findFrom h found
      exact absurd least.1 (underivable picks target)

theorem exists_least_of_find {key : Key} (found : l.find key = some target) :
    ∃ picks, l.LeastDerivation key.segments Tree.root 0 picks target :=
  exists_least_of_findFrom (Nat.zero_le _) found

theorem exists_find_of_derives {key : Key} {picks : List Pick}
    (derives : l.Derives key.segments Tree.root 0 picks target) :
    ∃ found, l.find key = some found := by
  rw [← Option.ne_none_iff_exists']
  intro nothing
  exact (findFrom_eq_none_iff (Nat.zero_le _)).1 nothing picks target derives

end Outcome

/-- There is at most one least derivation. -/
theorem LeastDerivation.unique {l : Lookup} {query : List Text} {node target other : NodeIndex}
    {consumed : Nat} {picks others : List Pick}
    (h : l.LeastDerivation query node consumed picks target)
    (h' : l.LeastDerivation query node consumed others other) : target = other := by
  obtain rfl | behind := h.2 others other h'.1
  · exact h.1.target_unique h'.1
  · obtain rfl | ahead := h'.2 picks target h.1
    · exact h.1.target_unique h'.1
    · exact absurd ahead (Std.Asymm.asymm _ _ behind)

/-- A search arrives where a least derivation ends. -/
theorem find_eq_of_least {l : Lookup} {key : Key} {picks : List Pick} {target : NodeIndex}
    (h : l.LeastDerivation key.segments Tree.root 0 picks target) : l.find key = some target := by
  obtain ⟨found, arrived⟩ := exists_find_of_derives h.1
  obtain ⟨others, least⟩ := exists_least_of_find arrived
  rw [arrived, least.unique h]

/-- A search finds the node at the end of the least derivation of its query, and it finds nothing
exactly where the query has no derivation. -/
theorem find_eq_some_iff_least (l : Lookup) (key : Key) :
    (∀ target, l.find key = some target ↔
      ∃ picks, l.LeastDerivation key.segments Tree.root 0 picks target) ∧
    (l.find key = none ↔ ∀ picks target, ¬ l.Derives key.segments Tree.root 0 picks target) := by
  constructor
  · intro target
    constructor
    · exact exists_least_of_find
    · rintro ⟨picks, least⟩
      exact find_eq_of_least least
  · have start : l.find key = l.findFrom (Position.at key.segments Tree.root 0) := rfl
    rw [start]
    exact findFrom_eq_none_iff (Nat.zero_le _)

end Lookup

end ResourceLookup
