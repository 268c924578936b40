import ResourceLookup.Text.Basic

/-!
# Entries

An entry is a key with what is stored under it, both as texts.
-/

namespace ResourceLookup

/-- A key with its value. -/
structure Entry where
  key : Text
  value : Text
deriving DecidableEq, Repr

end ResourceLookup
