import ResourceLookup.Error
import ResourceLookup.Key.Segment
import ResourceLookup.Key.WellFormed

/-!
# Keys

A key is a well-formed text in normal form. Reading one refuses every text that is not well
formed and puts the rest into normal form, so that equal keys have equal texts.

A key is used in two ways. As a pattern it is a list of steps, which say where a value is
stored. As a query it is cut at its tight delimiters into the segments that a search consumes.
-/

namespace ResourceLookup

/-- A well-formed key in normal form. -/
structure Key where
  text : Text
  isValid_text : Key.isValid text = true
  normalize_text : Key.normalize text = text
deriving DecidableEq

namespace Key

/-- Reads a key. A text that is not well formed is given back as it is. -/
def parse (raw : Text) : Except Error Key :=
  if h : isValid raw then
    .ok ⟨normalize raw, isValid_normalize h, normalize_normalize raw⟩
  else
    .error (.malformedKey raw)

@[ext] theorem ext {k l : Key} (h : k.text = l.text) : k = l := by
  cases k
  cases l
  cases h
  rfl

theorem parse_of_isValid {raw : Text} (h : isValid raw = true) :
    parse raw = .ok ⟨normalize raw, isValid_normalize h, normalize_normalize raw⟩ := by
  simp [parse, h]

theorem parse_of_not_isValid {raw : Text} (h : isValid raw = false) :
    parse raw = .error (.malformedKey raw) := by
  simp [parse, h]

/-- A key read from a text has the normal form of that text. -/
theorem parse_eq_ok_iff {raw : Text} {k : Key} :
    parse raw = .ok k ↔ isValid raw = true ∧ k.text = normalize raw := by
  by_cases h : isValid raw = true
  · rw [parse_of_isValid h]
    constructor
    · intro read
      cases read
      exact ⟨h, rfl⟩
    · rintro ⟨_, text⟩
      exact congrArg _ (ext text.symm)
  · simp [parse, h]

/-- Reading the text of a key gives the key back. -/
@[simp] theorem parse_text (k : Key) : parse k.text = .ok k :=
  parse_eq_ok_iff.2 ⟨k.isValid_text, k.normalize_text.symm⟩

/-- The steps of a key, from the root down. -/
def steps (k : Key) : List Step := Step.ofText k.text

/-- The segments of a key as a query: its text cut at every tight delimiter. -/
def segments (k : Key) : List Text := k.text.splitOn Binding.tight.delimiter

/-- A key with a relative one below it, joined by a tight delimiter. -/
def join (k : Key) (relative : Text) : Except Error Key :=
  parse (k.text ++ Binding.tight.delimiter :: relative)

theorem segments_ne_nil (k : Key) : k.segments ≠ [] := List.splitOn_ne_nil _ _

/-- Cutting a key into segments loses nothing. -/
theorem intercalate_segments (k : Key) :
    [Binding.tight.delimiter].intercalate k.segments = k.text :=
  List.intercalate_splitOn _

end Key

end ResourceLookup
