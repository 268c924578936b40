import ResourceLookup.Entry
import ResourceLookup.Error
import ResourceLookup.Properties.Escape
import ResourceLookup.Properties.LogicalLine

/-!
# Entries on property lines

On the line of an entry the key ends at the first `=`, `:` or blank that no backslash precedes;
the value follows after blanks and at most one `=` or `:`, without the blanks at its end.
Escapes are decoded last, so that escaped separators and blanks stay what they are.
-/

namespace ResourceLookup

namespace Entry

/-- Whether a character separates a key from its value, apart from blanks. -/
def isSeparator (c : Char) : Bool := c == '=' || c == ':'

/-- Cuts a line at the end of its key. A character behind a backslash does not end the key. -/
def splitKey : Text → Text × Text
  | [] => ([], [])
  | c :: rest =>
    if c = '\\' then
      match rest with
      | [] => ([c], [])
      | d :: rest => (c :: d :: (splitKey rest).1, (splitKey rest).2)
    else if isSeparator c || Text.isBlank c then ([], c :: rest)
    else (c :: (splitKey rest).1, (splitKey rest).2)

/-- The text without a separator at its beginning. -/
def dropSeparator : Text → Text
  | [] => []
  | c :: rest => if isSeparator c then rest else c :: rest

/-- What is written for the value, in the part of the line after the key. -/
def valueText (afterKey : Text) : Text :=
  (dropSeparator afterKey.trimStart).trimStart.trimEnd

/-- The entry on a line. The error is the text behind the first malformed escape, in the key or
else in the value. -/
def decode (line : Text) : Except Text Entry := do
  let (keyText, afterKey) := splitKey line
  let key ← Escape.decode keyText
  let value ← Escape.decode (valueText afterKey)
  return ⟨key, value⟩

/-- The entry on a logical line. -/
def ofLine (line : LogicalLine) : Except Warning Entry :=
  (decode line.text).mapError (.malformedEscape line.number)

/-- The separator of a line is among what follows the key: nothing is lost by cutting it there.
-/
theorem splitKey_append (line : Text) : (splitKey line).1 ++ (splitKey line).2 = line := by
  fun_induction splitKey line with
  | case1 => rfl
  | case2 => rfl
  | case3 d rest ih => simp [ih]
  | case4 => rfl
  | case5 c rest _ _ ih => simp [ih]

end Entry

end ResourceLookup
