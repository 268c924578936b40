import ResourceLookup.Key.Binding
import ResourceLookup.Text.Basic

/-!
# Normal form of delimiters

A run of delimiters that contains a loose one means the same as a single loose delimiter. The
normal form of a text writes every such run as `*`; runs of tight delimiters alone stay as they
are.

The normal form is built from the right. A delimiter put in front of a normal text either starts
the text's first run anew (`*`), or is taken up by a loose run (`.` before `*`), or is simply
written.
-/

namespace ResourceLookup.Key

/-- Puts a character in front of a normal text and keeps the text normal. -/
def attach (c : Char) (rest : Text) : Text :=
  if c = '*' then c :: rest.dropWhile isDelimiter
  else if c = '.' ∧ rest.head? = some '*' then rest
  else c :: rest

/-- The normal form of a text: each run of delimiters that contains `*` becomes a single `*`. -/
def normalize (t : Text) : Text := t.foldr attach []

@[simp] theorem normalize_nil : normalize [] = [] := rfl

theorem normalize_cons (c : Char) (t : Text) : normalize (c :: t) = attach c (normalize t) := rfl

theorem normalize_append (s t : Text) : normalize (s ++ t) = s.foldr attach (normalize t) := by
  simp [normalize]

/-- A character that is no delimiter is copied. -/
theorem attach_of_isDelimiter_eq_false {c : Char} (h : isDelimiter c = false) (rest : Text) :
    attach c rest = c :: rest := by
  rw [isDelimiter_eq_false_iff] at h
  simp [attach, h.1, h.2]

theorem attach_loose (rest : Text) : attach '*' rest = '*' :: rest.dropWhile isDelimiter := rfl

theorem attach_tight (rest : Text) :
    attach '.' rest = if rest.head? = some '*' then rest else '.' :: rest := by
  simp [attach]

theorem attach_ne_nil (c : Char) (rest : Text) : attach c rest ≠ [] := by
  unfold attach
  split
  · simp
  · split
    · rename_i h
      intro empty
      simp [empty] at h
    · simp

@[simp] theorem normalize_eq_nil_iff {t : Text} : normalize t = [] ↔ t = [] := by
  cases t with
  | nil => simp
  | cons c t => simp [normalize_cons, attach_ne_nil]

/-- Every character of an attached text is the new one or one of the old. -/
theorem mem_of_mem_attach {x c : Char} {rest : Text} (h : x ∈ attach c rest) :
    x = c ∨ x ∈ rest := by
  unfold attach at h
  split at h
  · rcases List.mem_cons.1 h with rfl | h
    · exact .inl rfl
    · exact .inr ((List.dropWhile_sublist _).subset h)
  · split at h
    · exact .inr h
    · exact List.mem_cons.1 h

theorem mem_of_mem_normalize {x : Char} {t : Text} (h : x ∈ normalize t) : x ∈ t := by
  induction t with
  | nil => exact h
  | cons c t ih =>
    rw [normalize_cons] at h
    rcases mem_of_mem_attach h with rfl | h
    · exact List.mem_cons_self
    · exact List.mem_cons_of_mem _ (ih h)

/-- The first character stays unless it is a tight delimiter in front of a loose run. -/
theorem head?_normalize_cons {c : Char} {t : Text} (h : c ≠ '.') :
    (normalize (c :: t)).head? = some c := by
  rw [normalize_cons, attach]
  split
  · rfl
  · simp [h]

/-- A normal text: a loose delimiter is followed by none, and a tight one not by a loose one. -/
def IsNormal : Text → Prop
  | a :: b :: rest =>
    (a = '*' → isDelimiter b = false) ∧ (a = '.' → b ≠ '*') ∧ IsNormal (b :: rest)
  | _ => True

theorem IsNormal.tail {c : Char} {t : Text} (h : IsNormal (c :: t)) : IsNormal t := by
  cases t with
  | nil => trivial
  | cons d t => exact h.2.2

theorem IsNormal.dropWhile {t : Text} (h : IsNormal t) (p : Char → Bool) :
    IsNormal (t.dropWhile p) := by
  induction t with
  | nil => trivial
  | cons c t ih =>
    rw [List.dropWhile_cons]
    split
    · exact ih h.tail
    · exact h

theorem IsNormal.attach {t : Text} (h : IsNormal t) (c : Char) : IsNormal (attach c t) := by
  unfold Key.attach
  split
  · rename_i loose
    subst loose
    match rest : t.dropWhile isDelimiter with
    | [] => trivial
    | d :: u =>
      have notDelimiter : isDelimiter d = false := by
        simpa [rest] using List.head?_dropWhile_not isDelimiter t
      refine ⟨fun _ => notDelimiter, fun tight => by simp at tight, ?_⟩
      rw [← rest]
      exact h.dropWhile isDelimiter
  · split
    · exact h
    · rename_i notLoose notAbsorbed
      cases t with
      | nil => trivial
      | cons d u =>
        refine ⟨fun loose => absurd loose notLoose, fun tight loose => ?_, h⟩
        exact notAbsorbed ⟨tight, by simp [loose]⟩

/-- The normal form is normal. -/
theorem isNormal_normalize (t : Text) : IsNormal (normalize t) := by
  induction t with
  | nil => trivial
  | cons c t ih => exact ih.attach c

theorem IsNormal.attach_eq {c : Char} {t : Text} (h : IsNormal (c :: t)) :
    Key.attach c t = c :: t := by
  cases t with
  | nil => simp [Key.attach]
  | cons d t =>
    obtain ⟨loose, tight, _⟩ := h
    unfold Key.attach
    split
    · rename_i isLoose
      simp [loose isLoose]
    · split
      · rename_i absorbed
        simpa using tight absorbed.1 (by simpa using absorbed.2)
      · rfl

/-- A normal text is its own normal form. -/
theorem IsNormal.normalize_eq {t : Text} (h : IsNormal t) : normalize t = t := by
  induction t with
  | nil => rfl
  | cons c t ih => rw [normalize_cons, ih h.tail, h.attach_eq]

@[simp] theorem normalize_normalize (t : Text) : normalize (normalize t) = normalize t :=
  (isNormal_normalize t).normalize_eq

end ResourceLookup.Key
