/-!
# Bindings

A segment of a key is bound to the one before it either tightly, directly below it, or loosely,
any number of levels below it. Each binding has the delimiter that writes it.
-/

namespace ResourceLookup

/-- How a segment is bound to the node above it. -/
inductive Binding where
  /-- Directly below. -/
  | tight
  /-- Any number of levels below. -/
  | loose
deriving DecidableEq, Repr, Inhabited

namespace Binding

/-- Both bindings, in the order in which a search tries them. -/
def all : List Binding := [tight, loose]

/-- The place of a binding in the search order. -/
def index : Binding → Nat
  | tight => 0
  | loose => 1

/-- The character that writes a binding. -/
def delimiter : Binding → Char
  | tight => '.'
  | loose => '*'

/-- The binding that a character writes. -/
def ofDelimiter? (c : Char) : Option Binding :=
  if c = '.' then some tight else if c = '*' then some loose else none

@[simp] theorem ofDelimiter?_delimiter (b : Binding) : ofDelimiter? b.delimiter = some b := by
  cases b <;> rfl

theorem ofDelimiter?_eq_some_iff {c : Char} {b : Binding} :
    ofDelimiter? c = some b ↔ c = b.delimiter := by
  constructor
  · intro h
    simp only [ofDelimiter?] at h
    split at h
    · cases h; assumption
    · split at h
      · cases h; assumption
      · cases h
  · rintro rfl
    exact ofDelimiter?_delimiter b

theorem mem_all (b : Binding) : b ∈ all := by cases b <;> simp [all]

end Binding

/-- Whether a character writes a binding. -/
def isDelimiter (c : Char) : Bool := c == '.' || c == '*'

theorem isDelimiter_eq_false_iff {c : Char} : isDelimiter c = false ↔ c ≠ '.' ∧ c ≠ '*' := by
  simp [isDelimiter]

theorem ofDelimiter?_eq_none_iff {c : Char} :
    Binding.ofDelimiter? c = none ↔ isDelimiter c = false := by
  simp only [Binding.ofDelimiter?, isDelimiter_eq_false_iff]
  by_cases tight : c = '.'
  · simp [tight]
  · by_cases loose : c = '*' <;> simp [tight, loose]

end ResourceLookup
