import ResourceLookup.Proofs.Lookup.Choice

/-!
# Simulation of searches

Two searches run alike if their trees have related children in every slot that a search can ask
for and their registries record the same types along the query. Node indices need not agree: a
search never looks at them.
-/

namespace ResourceLookup

theorem rel_bind {α β γ δ : Type} {R : α → β → Prop} {S : γ → δ → Prop} {x : Option α}
    {y : Option β} {f : α → Option γ} {g : β → Option δ} (h : Option.Rel R x y)
    (step : ∀ a b, R a b → Option.Rel S (f a) (g b)) : Option.Rel S (x.bind f) (y.bind g) := by
  cases h with
  | none => exact .none
  | some related => exact step _ _ related

/-- What is found first among the same elements is related if what each of them gives is. -/
theorem rel_findSome? {α β γ : Type} {R : β → γ → Prop} {f : α → Option β} {g : α → Option γ}
    (xs : List α) (h : ∀ x ∈ xs, Option.Rel R (f x) (g x)) :
    Option.Rel R (xs.findSome? f) (xs.findSome? g) := by
  induction xs with
  | nil => exact .none
  | cons x xs ih =>
    have rest := ih fun y hy => h y (.tail _ hy)
    have first := h x (.head _)
    rw [List.findSome?_cons, List.findSome?_cons]
    generalize f x = y at first ⊢
    generalize g x = z at first ⊢
    cases first with
    | none => exact rest
    | some related => exact .some related

namespace Lookup

/-- Related nodes have related children in the same slots. -/
structure Alike (R : NodeIndex → NodeIndex → Prop) (l m : Lookup) : Prop where
  hierarchy_eq : l.hierarchy = m.hierarchy
  root : R Tree.root Tree.root
  rel_get? : ∀ {i j : NodeIndex}, R i j → ∀ (b : Binding) (category : Category) (segment : Text),
    (category = .singleMatch → segment = singleMatch) →
      Option.Rel R (((l.tree.node i).children b).get? category segment)
        (((m.tree.node j).children b).get? category segment)

namespace Alike

variable {R : NodeIndex → NodeIndex → Prop} {l m : Lookup} {i j : NodeIndex}

/-- A choice selects related children of related nodes. -/
theorem rel_chosen? (h : Alike R l m) (nodes : R i j) {consumed : List Text}
    (types : l.typeAt? (path consumed) = m.typeAt? (path consumed)) (b : Binding) (segment : Text)
    (c : Choice) :
    Option.Rel R (l.chosen? ((l.tree.node i).children b) consumed segment c)
      (m.chosen? ((m.tree.node j).children b) consumed segment c) := by
  cases c with
  | exact => exact h.rel_get? nodes b _ segment Category.ofSegment_eq_singleMatch_iff.1
  | byType =>
    have same : l.typeOf? consumed segment = m.typeOf? consumed segment := by
      simp only [typeOf?]
      rw [types]
    rw [chosen?_byType, chosen?_byType, same]
    cases m.typeOf? consumed segment with
    | none => exact .none
    | some type =>
      rw [Option.bind_some, Option.bind_some, nearest?, nearest?, h.hierarchy_eq]
      exact rel_findSome? _ fun name _ => h.rel_get? nodes b .byType name (by simp)
  | single => exact h.rel_get? nodes b .singleMatch singleMatch fun _ => rfl

/-- Searches from related nodes with the same query arrive at related nodes. -/
theorem rel_findFrom (h : Alike R l m) (nodes : R i j) {consumed rest : List Text}
    (types : ∀ pre, pre ≠ [] → pre <+: consumed ++ rest →
      l.typeAt? (path pre) = m.typeAt? (path pre)) :
    Option.Rel R (l.findFrom ⟨i, consumed, rest⟩) (m.findFrom ⟨j, consumed, rest⟩) := by
  induction n : rest.length using Nat.strongRecOn generalizing i j consumed rest with
  | ind n ih =>
    by_cases arrived : rest = []
    · rw [findFrom_of_rest_eq_nil l arrived, findFrom_of_rest_eq_nil m arrived]
      exact .some nodes
    · rw [findFrom_eq_choices l arrived, findFrom_eq_choices m arrived]
      apply rel_findSome?
      intro b _
      apply rel_findSome?
      intro a ha
      apply rel_findSome?
      intro c _
      have anchor := Anchor.mem_all_of_mem_allowed ha
      have whole : consumed ++ a.consumed ++ a.tail = consumed ++ rest := by
        rw [List.append_assoc, Anchor.consumed_append_tail anchor]
      have begins : consumed ++ a.consumed <+: consumed ++ rest := ⟨a.tail, whole⟩
      have recorded := types _ (by simp [Anchor.consumed]) begins
      apply rel_bind (h.rel_chosen? nodes recorded b a.head c)
      intro child child' related
      exact ih _ (n ▸ Anchor.length_tail_lt anchor) related (whole ▸ types) rfl

/-- A query leads to related nodes. -/
theorem rel_find (h : Alike R l m) {key : Key}
    (types : ∀ pre, pre ≠ [] → pre <+: key.segments →
      l.typeAt? (path pre) = m.typeAt? (path pre)) :
    Option.Rel R (l.find key) (m.find key) :=
  h.rel_findFrom h.root types

end Alike

end Lookup

end ResourceLookup
