import ResourceLookup.Key.Binding
import ResourceLookup.Text.Basic

/-!
# Anchors

A binding takes one segment of a query: a tight one the next, a loose one any after skipping
those before it. An anchor is one way to do so: the segments that are skipped, the one that is
taken, and those that are left. The anchors of a query are listed by the number of segments they
skip.
-/

namespace ResourceLookup

/-- A segment of a query with what is before and after it. -/
structure Anchor where
  skipped : List Text
  head : Text
  tail : List Text
deriving DecidableEq, Repr

namespace Anchor

/-- The segments up to and including the one taken. -/
def consumed (a : Anchor) : List Text := a.skipped ++ [a.head]

/-- The same anchor when one more segment comes before. -/
def skip (segment : Text) (a : Anchor) : Anchor := { a with skipped := segment :: a.skipped }

/-- The anchors of a query, one for each segment, those that skip less first. -/
def all : List Text → List Anchor
  | [] => []
  | segment :: rest => ⟨[], segment, rest⟩ :: (all rest).map (skip segment)

/-- The anchor that skips nothing. -/
def next : List Text → List Anchor
  | [] => []
  | segment :: rest => [⟨[], segment, rest⟩]

/-- The anchors that a binding allows. -/
def allowed : Binding → List Text → List Anchor
  | .tight => next
  | .loose => all

@[simp] theorem allowed_tight : allowed .tight = next := rfl

@[simp] theorem allowed_loose : allowed .loose = all := rfl

theorem mem_all_of_mem_allowed {b : Binding} {segments : List Text} {a : Anchor}
    (h : a ∈ allowed b segments) : a ∈ all segments := by
  cases b with
  | loose => exact h
  | tight =>
    cases segments with
    | nil => exact h
    | cons segment rest =>
      obtain rfl := List.mem_singleton.1 h
      exact List.mem_cons_self

/-- There is one anchor for each segment, in order. -/
@[simp] theorem map_head_all (segments : List Text) : (all segments).map (·.head) = segments := by
  induction segments with
  | nil => rfl
  | cons segment rest ih => simp [all, skip, Function.comp_def, ih]

/-- An anchor consumes a beginning of the query and leaves the rest of it. -/
theorem consumed_append_tail {segments : List Text} {a : Anchor} (h : a ∈ all segments) :
    a.consumed ++ a.tail = segments := by
  induction segments generalizing a with
  | nil => simp [all] at h
  | cons segment rest ih =>
    rcases List.mem_cons.1 h with rfl | h
    · rfl
    · obtain ⟨b, hb, rfl⟩ := List.mem_map.1 h
      have := ih hb
      simpa [consumed, skip] using this

/-- An anchor leaves less than the whole query. -/
theorem length_tail_lt {segments : List Text} {a : Anchor} (h : a ∈ all segments) :
    a.tail.length < segments.length := by
  rw [← consumed_append_tail h]
  simp [consumed]
  omega

end Anchor

end ResourceLookup
