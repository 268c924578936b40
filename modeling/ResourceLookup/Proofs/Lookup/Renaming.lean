import Mathlib.Data.List.Forall2
import ResourceLookup.Proofs.Lookup.Derivation

/-!
# Renamed queries

A segment that names an instance takes part in a search in two ways: a child may be called by it,
and its type may be on record under the path that it ends. A name that no child has can therefore
be exchanged for another such name, provided that the types on record move along with it.
`Renamed.find_eq` says that the search then arrives at the same node.
-/

namespace ResourceLookup

namespace Tree

/-- The name of an instance that no child in the tree has. -/
structure Unused (t : Tree) (name : Text) : Prop where
  byName : Category.ofSegment name = .byName
  get?_eq : ∀ i b, ((t.node i).children b).get? .byName name = none

/-- Segments that are the same to a tree. -/
def Indistinct (t : Tree) (segment segment' : Text) : Prop :=
  segment = segment' ∨ t.Unused segment ∧ t.Unused segment'

end Tree

namespace Lookup

/-- A query is renamed to another one if the tree cannot tell their segments apart, and `types` has
on record along the new query what the search has along the old one. -/
structure Renamed (l : Lookup) (types : Text → Option Text) (query query' : List Text) :
    Prop where
  segments : List.Forall₂ l.tree.Indistinct query query'
  types_eq : ∀ k, types (path (query'.take (k + 1))) = l.typeAt? (path (query.take (k + 1)))

variable {l : Lookup} {types : Text → Option Text} {query query' : List Text}

theorem typeOf?_of_indistinct {consumed consumed' : List Text} {segment segment' : Text}
    (same : l.tree.Indistinct segment segment')
    (recorded : types (path consumed') = l.typeAt? (path consumed)) :
    ({ l with typeAt? := types } : Lookup).typeOf? consumed' segment' =
      l.typeOf? consumed segment := by
  obtain rfl | ⟨unused, unused'⟩ := same
  · simp only [typeOf?]
    rw [recorded]
  · simp only [typeOf?, unused.byName, unused'.byName]
    exact recorded

theorem chosen?_of_indistinct {consumed consumed' : List Text} {segment segment' : Text}
    (same : l.tree.Indistinct segment segment')
    (recorded : types (path consumed') = l.typeAt? (path consumed)) (i : NodeIndex)
    (b : Binding) (c : Choice) :
    ({ l with typeAt? := types } : Lookup).chosen? ((l.tree.node i).children b) consumed' segment'
        c =
      l.chosen? ((l.tree.node i).children b) consumed segment c := by
  cases c with
  | exact =>
    obtain rfl | ⟨unused, unused'⟩ := same
    · rfl
    · simp only [chosen?, unused.byName, unused'.byName, unused.get?_eq, unused'.get?_eq]
  | byType =>
    rw [chosen?_byType, chosen?_byType, typeOf?_of_indistinct same recorded]
    rfl
  | single => rfl

namespace Renamed

theorem length_eq (h : l.Renamed types query query') : query.length = query'.length :=
  h.segments.length_eq

/-- A pick leads to the same child. -/
theorem follow?_eq (h : l.Renamed types query query') (node : NodeIndex) {pick : Pick}
    (some_taken : 0 < pick.anchor) :
    ({ l with typeAt? := types } : Lookup).follow? query' node pick =
      l.follow? query node pick := by
  obtain ⟨binding, anchor, choice⟩ := pick
  obtain ⟨k, rfl⟩ := Nat.exists_eq_add_one.2 some_taken
  rw [follow?, follow?]
  by_cases within : k < query.length
  · have within' : k < query'.length := h.length_eq ▸ within
    have same : l.tree.Indistinct query[k] query'[k] := h.segments.get within within'
    rw [Nat.add_sub_cancel, List.getElem?_eq_getElem within, List.getElem?_eq_getElem within']
    exact chosen?_of_indistinct same (h.types_eq k) node binding choice
  · have beyond : query.length ≤ k := Nat.le_of_not_lt within
    rw [Nat.add_sub_cancel, List.getElem?_eq_none beyond,
      List.getElem?_eq_none (h.length_eq ▸ beyond)]
    rfl

/-- A search from within the query finds the same. The induction is on what is left of the
query. -/
theorem findFrom_eq (h : l.Renamed types query query') (node : NodeIndex) {consumed : Nat}
    (le : consumed ≤ query.length) :
    ({ l with typeAt? := types } : Lookup).findFrom (Position.at query' node consumed) =
      l.findFrom (Position.at query node consumed) := by
  induction left : query.length - consumed using Nat.strongRecOn generalizing node consumed with
  | ind left ih =>
    obtain finished | unfinished := Nat.eq_or_lt_of_le le
    · have finished' : consumed = query'.length := finished.trans h.length_eq
      rw [findFrom_of_rest_eq_nil _ (by simp [Position.at, finished']),
        findFrom_of_rest_eq_nil _ (by simp [Position.at, finished])]
      rfl
    · rw [findFrom_eq_picks _ node unfinished, findFrom_eq_picks _ node (h.length_eq ▸ unfinished),
        ← h.length_eq]
      apply findSome?_congr
      intro pick listed
      have allowed := Pick.mem_all_iff.1 listed
      have more := allowed.consumed_lt
      have within := allowed.anchor_le
      rw [h.follow?_eq node (Nat.zero_lt_of_lt more)]
      congr 1
      funext child
      exact ih _ (by omega) child within rfl

/-- A renamed query leads to the same node. -/
theorem find_eq {key key' : Key} (h : l.Renamed types key.segments key'.segments) :
    ({ l with typeAt? := types } : Lookup).find key' = l.find key :=
  h.findFrom_eq Tree.root (Nat.zero_le _)

end Renamed

end Lookup

end ResourceLookup
