import ResourceLookup.Text.Basic
import ResourceLookup.Text.Uppercase

/-!
# Segments

A segment of a key names an instance, a type, or any one segment. Which of the three it is shows
in its text alone: `?` stands for any segment, a text that starts with an uppercase letter or
contains `/` names a type, and every other text names an instance.

The names under which objects are registered are the segments that name an instance, with a few
characters and one reserved word excepted.
-/

namespace ResourceLookup

/-- The segment that matches exactly one arbitrary segment. -/
def singleMatch : Text := ['?']

/-- The character that joins the parts of a type path such as `widgets/Button`. -/
def typeSeparator : Char := '/'

/-- What a segment refers to. -/
inductive Category where
  /-- An instance, by its name. -/
  | byName
  /-- A type, by its path. -/
  | byType
  /-- Any one segment. -/
  | singleMatch
deriving DecidableEq, Repr, Inhabited

/-- The category of a segment. -/
def Category.ofSegment (segment : Text) : Category :=
  if segment = ResourceLookup.singleMatch then .singleMatch
  else if segment.head?.any Text.isUppercase || segment.contains typeSeparator then .byType
  else .byName

@[simp] theorem Category.ofSegment_singleMatch :
    Category.ofSegment ResourceLookup.singleMatch = .singleMatch := rfl

theorem Category.ofSegment_eq_singleMatch_iff {segment : Text} :
    Category.ofSegment segment = .singleMatch ↔ segment = ResourceLookup.singleMatch := by
  unfold Category.ofSegment
  split
  · simp_all
  · split <;> simp_all

/-- The name that holds the place of an unregistered object during a relative lookup. No object
can be registered under it. -/
def probeName : Text := "_probe$7Qx2rL9".toList

/-- Whether an object may be registered under a name. A name is not empty, does not start with
an uppercase letter, has no delimiter, no `?`, no `/` and no blank, and is not the reserved one.
-/
def isValidName (name : Text) : Bool :=
  !name.isEmpty
    && !name.head?.any Text.isUppercase
    && !name.any (fun c => c == '.' || c == '*' || c == '?' || c == typeSeparator)
    && !name.any Text.isBlank
    && name != probeName

/-- Whether a name, or each part of a dotted one, is valid. -/
def isValidPath (path : Text) : Bool := (path.splitOn '.').all isValidName

@[simp] theorem isValidName_probeName : isValidName probeName = false := by decide +kernel

/-- A valid name refers to an instance. -/
theorem Category.ofSegment_of_isValidName {name : Text} (h : isValidName name = true) :
    Category.ofSegment name = .byName := by
  simp only [isValidName, Bool.and_eq_true, Bool.not_eq_true', List.any_eq_false] at h
  obtain ⟨⟨⟨⟨_, first⟩, delimiters⟩, _⟩, _⟩ := h
  have noSeparator : typeSeparator ∉ name := fun hm => by simpa using delimiters _ hm
  have notSingle : name ≠ ResourceLookup.singleMatch := by
    rintro rfl
    simpa using delimiters '?' (by simp [ResourceLookup.singleMatch])
  simp [Category.ofSegment, notSingle, first, noSeparator]

end ResourceLookup
