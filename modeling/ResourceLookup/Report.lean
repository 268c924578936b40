import ResourceLookup.Text.Basic

/-!
# Reports

Storing many resources at once reports how many were stored and which keys were passed over.
Reports of successive loads are merged.
-/

namespace ResourceLookup

/-- The result of storing many resources. -/
structure Report where
  /-- The number of resources that were stored. -/
  inserted : Nat
  /-- The keys that are not well formed, in order. -/
  skipped : List Text
deriving DecidableEq, Repr

namespace Report

/-- The report of a load that did nothing. -/
def empty : Report := ⟨0, []⟩

instance : Inhabited Report := ⟨empty⟩

/-- The report of a load followed by a later one. -/
def merge (earlier later : Report) : Report :=
  ⟨earlier.inserted + later.inserted, earlier.skipped ++ later.skipped⟩

@[simp] theorem empty_merge (r : Report) : empty.merge r = r := by simp [empty, merge]

@[simp] theorem merge_empty (r : Report) : r.merge empty = r := by simp [empty, merge]

theorem merge_assoc (r s t : Report) : (r.merge s).merge t = r.merge (s.merge t) := by
  simp [merge, Nat.add_assoc]

end Report

end ResourceLookup
