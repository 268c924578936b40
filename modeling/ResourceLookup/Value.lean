import ResourceLookup.Text.Basic

/-!
# Values

A resource holds a single text or a list of texts. Both are stored as one text, a list with `" |
"` between its values. Reading a stored text takes any text with a `|` for a list, drops the
empty pieces, and trims the others; an empty text holds no value at all.
-/

namespace ResourceLookup

/-- The character that separates the values of a list. -/
def valueDelimiter : Char := '|'

/-- The value of a resource. -/
inductive Value where
  /-- One text. -/
  | single (text : Text)
  /-- A list of texts. -/
  | list (texts : List Text)
deriving DecidableEq, Repr

namespace Value

/-- The text of a single value. -/
def asSingle : Value → Option Text
  | single text => some text
  | list _ => none

/-- The values, where a single one is a list of one. -/
def toList : Value → List Text
  | single text => [text]
  | list texts => texts

/-- Joins texts into the stored form of a list. -/
def joinTexts (texts : List Text) : Text := [' ', valueDelimiter, ' '].intercalate texts

/-- The stored form of a value. -/
def toStored : Value → Text
  | single text => text
  | list texts => joinTexts texts

/-- Reads a stored text. -/
def ofStored? (stored : Text) : Option Value :=
  if stored.isEmpty then none
  else if stored.contains valueDelimiter then
    some (list (((stored.splitOn valueDelimiter).filter (!·.isEmpty)).map Text.trim))
  else some (single stored)

@[simp] theorem toStored_single (t : Text) : (single t).toStored = t := rfl

@[simp] theorem toStored_list (ts : List Text) : (list ts).toStored = joinTexts ts := rfl

@[simp] theorem ofStored?_nil : ofStored? [] = none := rfl

/-- A text without `|` is a single value, as it stands. -/
theorem ofStored?_of_not_mem {t : Text} (nonempty : t ≠ []) (h : valueDelimiter ∉ t) :
    ofStored? t = some (single t) := by
  simp [ofStored?, nonempty, h]

/-- A text with `|` is a list. -/
theorem ofStored?_of_mem {t : Text} (h : valueDelimiter ∈ t) :
    ofStored? t =
      some (list (((t.splitOn valueDelimiter).filter (!·.isEmpty)).map Text.trim)) := by
  have nonempty : t ≠ [] := List.ne_nil_of_mem h
  simp [ofStored?, nonempty, h]

/-- Only the empty text holds no value. -/
theorem ofStored?_eq_none_iff {t : Text} : ofStored? t = none ↔ t = [] := by
  unfold ofStored?
  split
  · simp_all
  · split <;> simp_all

end Value

end ResourceLookup
