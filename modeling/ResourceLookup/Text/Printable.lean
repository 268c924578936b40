import ResourceLookup.Text.Blank
import ResourceLookup.Text.ExtendingMark
import ResourceLookup.Text.Unassigned

/-!
# Printable characters

A character is printable when a reader sees it where it stands alone. Control and formatting
characters, fillers, marks that need a character before them, code points for private use and
code points without a character are not printable, and of the blanks only the space is.
-/

namespace ResourceLookup.Text

/-- Whether a character is a control character, general category `Cc`. -/
def isControl (c : Char) : Bool := c.toNat < 0x20 || (0x7F ≤ c.toNat && c.toNat < 0xA0)

/-- The formatting characters, general category `Cf`, and the letters with the Unicode property
`Default_Ignorable_Code_Point`, which are the Hangul fillers. -/
def invisible : List CodeRange := [
  ⟨0xAD, 0xAD, 1⟩, ⟨0x600, 0x605, 1⟩, ⟨0x61C, 0x61C, 1⟩, ⟨0x6DD, 0x6DD, 1⟩, ⟨0x70F, 0x70F, 1⟩,
  ⟨0x890, 0x891, 1⟩, ⟨0x8E2, 0x8E2, 1⟩, ⟨0x115F, 0x1160, 1⟩, ⟨0x180E, 0x180E, 1⟩,
  ⟨0x200B, 0x200F, 1⟩, ⟨0x202A, 0x202E, 1⟩, ⟨0x2060, 0x2064, 1⟩, ⟨0x2066, 0x206F, 1⟩,
  ⟨0x3164, 0x3164, 1⟩, ⟨0xFEFF, 0xFEFF, 1⟩, ⟨0xFFA0, 0xFFA0, 1⟩, ⟨0xFFF9, 0xFFFB, 1⟩,
  ⟨0x110BD, 0x110BD, 1⟩, ⟨0x110CD, 0x110CD, 1⟩, ⟨0x13430, 0x1343F, 1⟩, ⟨0x1BCA0, 0x1BCA3, 1⟩,
  ⟨0x1D173, 0x1D17A, 1⟩, ⟨0xE0001, 0xE0001, 1⟩, ⟨0xE0020, 0xE007F, 1⟩]

example : ascending invisible = true := by decide +kernel

/-- The code points whose meaning is left to private agreement, general category `Co`. -/
def privateUse : List CodeRange := [
  ⟨0xE000, 0xF8FF, 1⟩, ⟨0xF0000, 0xFFFFD, 1⟩, ⟨0x100000, 0x10FFFD, 1⟩]

/-- Whether a character is seen where it stands alone. -/
def isPrintable (c : Char) : Bool :=
  if c.toNat < 0x7F then 0x20 ≤ c.toNat
  else !(isControl c || isBlank c || covers invisible c || covers privateUse c
    || covers extendingMarks c || covers unassigned c)

/-- Among the ASCII characters the printable ones are those from the space to the tilde. -/
theorem isPrintable_of_lt {c : Char} (h : c.toNat < 0x80) :
    isPrintable c = (0x20 ≤ c.toNat && c.toNat ≤ 0x7E) := by
  unfold isPrintable
  split
  · rename_i below
    simp [Nat.le_of_lt_succ below]
  · rename_i notBelow
    have del : c.toNat = 0x7F := by omega
    simp [isControl, del]

/-- A control character is not printable. -/
theorem isPrintable_eq_false_of_isControl {c : Char} (h : isControl c = true) :
    isPrintable c = false := by
  unfold isPrintable
  split
  · simp only [isControl, Bool.or_eq_true, Bool.and_eq_true, decide_eq_true_eq] at h
    exact decide_eq_false (by omega)
  · simp [h]

end ResourceLookup.Text
