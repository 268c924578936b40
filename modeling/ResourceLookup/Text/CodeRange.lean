/-!
# Ranges of code points

A class of characters as a table of ranges. A class where every other code point is a member, as
where each capital is followed by its small letter, takes one range of stride two.
-/

namespace ResourceLookup.Text

/-- The code points `first`, `first + stride`, and so on up to `last`. -/
structure CodeRange where
  first : Nat
  last : Nat
  stride : Nat
deriving DecidableEq, Repr

namespace CodeRange

/-- Whether a code point is one of the range. -/
def contains (r : CodeRange) (n : Nat) : Bool :=
  r.first ≤ n && n ≤ r.last && (n - r.first) % r.stride == 0

/-- How many code points the range has. -/
def size (r : CodeRange) : Nat := (r.last - r.first) / r.stride + 1

end CodeRange

/-- Whether a character is in one of the ranges of a table. -/
def covers (table : List CodeRange) (c : Char) : Bool := table.any (·.contains c.toNat)

/-- How many code points the ranges of a table have together. -/
def countOf (table : List CodeRange) : Nat := table.foldr (fun r rest => r.size + rest) 0

/-- Whether each range of a table ends at one of its own code points and before the next range
starts. -/
def ascending : List CodeRange → Bool
  | [] => true
  | [r] => r.contains r.last
  | r :: s :: table => r.contains r.last && r.last < s.first && ascending (s :: table)

end ResourceLookup.Text
