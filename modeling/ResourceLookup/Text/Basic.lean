import ResourceLookup.Text.Blank

/-!
# Text

Everything the library reads and writes is a sequence of characters. Texts are cut at a
separator with `List.splitOn` and put together again with `List.intercalate`; this module adds
the trimming of blanks at either end.
-/

namespace ResourceLookup

/-- A text is the list of its characters. Texts are ordered by code point. -/
abbrev Text := List Char

namespace Text

/-- The text without its leading blanks. -/
def trimStart (t : Text) : Text := t.dropWhile isBlank

/-- The text without its trailing blanks. -/
def trimEnd (t : Text) : Text :=
  t.foldr (fun c rest => if rest.isEmpty && isBlank c then [] else c :: rest) []

/-- The text without the blanks at either end. -/
def trim (t : Text) : Text := t.trimStart.trimEnd

@[simp] theorem trimStart_nil : trimStart [] = [] := rfl

@[simp] theorem trimEnd_nil : trimEnd [] = [] := rfl

theorem trimEnd_cons (c : Char) (t : Text) :
    trimEnd (c :: t) = if (trimEnd t).isEmpty && isBlank c then [] else c :: trimEnd t := rfl

/-- Trimming keeps a beginning of the text. -/
theorem trimEnd_isPrefix (t : Text) : trimEnd t <+: t := by
  induction t with
  | nil => exact List.prefix_rfl
  | cons c t ih =>
    rw [trimEnd_cons]
    split
    · exact List.nil_prefix
    · exact List.cons_prefix_cons.2 ⟨rfl, ih⟩

/-- A text that does not end in a blank is its own trimmed form. -/
theorem trimEnd_append_singleton {t : Text} {c : Char} (h : isBlank c = false) :
    trimEnd (t ++ [c]) = t ++ [c] := by
  induction t with
  | nil => simp [trimEnd_cons, h]
  | cons d t ih => simp [trimEnd_cons, ih]

end Text

end ResourceLookup
