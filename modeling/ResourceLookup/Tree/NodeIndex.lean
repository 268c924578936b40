import ResourceLookup.Text.Basic

/-!
# Node indices

Nodes are numbered from zero in the order of their creation. A number is a node index if it is
less than the greatest 32-bit number.
-/

namespace ResourceLookup

/-- The number of a node. -/
abbrev NodeIndex := Nat

namespace NodeIndex

/-- The first number that is no node index. -/
def limit : Nat := 0xFFFFFFFF

/-- A number as a node index, if it is one. -/
def ofNat? (n : Nat) : Option NodeIndex := if n < limit then some n else none

/-- The text that tells about a number which is no node index. -/
def outOfRangeMessage : Text := "node index must be less than u32::MAX".toList

theorem ofNat?_eq_some_iff {n : Nat} {i : NodeIndex} : ofNat? n = some i ↔ n < limit ∧ n = i := by
  simp [ofNat?]

end NodeIndex

end ResourceLookup
