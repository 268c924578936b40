import ResourceLookup.Text.Basic

/-!
# Trimming

Trimming cuts at either end and nowhere else, so a text that keeps its length is kept as it is.
These are the texts without a blank at either end.
-/

namespace ResourceLookup

namespace Text

theorem trimStart_isSuffix (t : Text) : t.trimStart <:+ t := List.dropWhile_suffix _

theorem length_trimStart_le (t : Text) : t.trimStart.length ≤ t.length :=
  (trimStart_isSuffix t).length_le

theorem trimStart_append_of_blank {padding : Text} (h : ∀ c ∈ padding, isBlank c = true)
    (t : Text) : trimStart (padding ++ t) = trimStart t := List.dropWhile_append_of_pos h

theorem trimStart_of_head {t : Text} (h : t.head?.any isBlank = false) : t.trimStart = t := by
  cases t with
  | nil => rfl
  | cons c t =>
    have plain : isBlank c = false := h
    rw [trimStart, List.dropWhile_cons_of_neg (by simp [plain])]

/-- What is put behind a text stays as it is, unless it turns out to be leading blanks. -/
theorem trimStart_append {t u : Text} (fits : t.trimStart = [] → u.trimStart = u) :
    trimStart (t ++ u) = trimStart t ++ u := by
  rw [trimStart, List.dropWhile_append]
  split
  · rename_i nothing
    have blank : t.trimStart = [] := List.isEmpty_iff.1 nothing
    rw [blank]
    exact fits blank
  · rfl

theorem trimEnd_append_blank {t : Text} {c : Char} (h : isBlank c = true) :
    trimEnd (t ++ [c]) = trimEnd t := by
  induction t with
  | nil => simp [trimEnd_cons, h]
  | cons d t ih => rw [List.cons_append, trimEnd_cons, trimEnd_cons, ih]

theorem trimEnd_append_of_blank {padding : Text} (h : ∀ c ∈ padding, isBlank c = true)
    (t : Text) : trimEnd (t ++ padding) = trimEnd t := by
  induction padding generalizing t with
  | nil => rw [List.append_nil]
  | cons c padding ih =>
    obtain ⟨first, rest⟩ := List.forall_mem_cons.1 h
    rw [List.append_cons, ih rest, trimEnd_append_blank first]

theorem length_trim_le (t : Text) : t.trim.length ≤ t.length :=
  Nat.le_trans (trimEnd_isPrefix _).length_le (length_trimStart_le t)

theorem trim_append_of_blank {padding : Text} (h : ∀ c ∈ padding, isBlank c = true) (t : Text) :
    trim (t ++ padding) = trim t := by
  induction t with
  | nil =>
    have nothing : trimStart padding = [] := by
      rw [← List.append_nil padding, trimStart_append_of_blank h, trimStart_nil]
    rw [List.nil_append, trim, nothing]
    rfl
  | cons c t ih =>
    cases blank : isBlank c with
    | true =>
      have skip (u : Text) : trimStart (c :: u) = trimStart u := List.dropWhile_cons_of_pos blank
      rw [List.cons_append, trim, trim, skip, skip]
      exact ih
    | false =>
      have kept (u : Text) : trimStart (c :: u) = c :: u := trimStart_of_head blank
      rw [List.cons_append, trim, trim, kept, kept, ← List.cons_append, trimEnd_append_of_blank h]

/-- What is trimmed gets shorter. -/
theorem trim_eq_of_length_le {t : Text} (h : t.length ≤ t.trim.length) : t.trim = t := by
  have start : t.trimStart = t :=
    (trimStart_isSuffix t).eq_of_length_le (Nat.le_trans h (trimEnd_isPrefix _).length_le)
  rw [trim, start] at h ⊢
  exact (trimEnd_isPrefix t).eq_of_length_le h

/-- No blank is left at the beginning. -/
theorem head?_trimStart (t : Text) : t.trimStart.head?.any isBlank = false := by
  have first := List.head?_dropWhile_not isBlank t
  rw [← trimStart] at first
  cases head : t.trimStart.head? with
  | none => rfl
  | some c => simpa [head] using first

theorem head?_trimEnd {t : Text} (h : t.head?.any isBlank = false) :
    t.trimEnd.head?.any isBlank = false := by
  cases t with
  | nil => rfl
  | cons c t =>
    have plain : isBlank c = false := h
    simp [trimEnd_cons, plain]

/-- No blank is left at the end. -/
theorem getLast?_trimEnd (t : Text) : t.trimEnd.getLast?.any isBlank = false := by
  induction t with
  | nil => rfl
  | cons c t ih =>
    rw [trimEnd_cons]
    cases rest : trimEnd t with
    | nil => cases blank : isBlank c <;> simp [blank]
    | cons d u =>
      rw [rest] at ih
      simpa [List.getLast?_cons_cons] using ih

/-- Trimming keeps exactly the texts that have no blank at either end. -/
theorem trim_eq_self_iff {t : Text} :
    t.trim = t ↔ t.head?.any isBlank = false ∧ t.getLast?.any isBlank = false := by
  constructor
  · intro kept
    rw [← kept]
    exact ⟨head?_trimEnd (head?_trimStart t), getLast?_trimEnd t.trimStart⟩
  · rintro ⟨first, last⟩
    rw [trim, trimStart_of_head first]
    rcases List.eq_nil_or_concat t with rfl | ⟨u, c, rfl⟩
    · rfl
    · rw [List.concat_eq_append, List.getLast?_concat, Option.any_some] at last
      rw [List.concat_eq_append, trimEnd_append_singleton last]

@[simp] theorem trim_trim (t : Text) : t.trim.trim = t.trim :=
  trim_eq_self_iff.2 ⟨head?_trimEnd (head?_trimStart t), getLast?_trimEnd t.trimStart⟩

/-- Trimming adds no character. -/
theorem mem_of_mem_trim {c : Char} {t : Text} (h : c ∈ t.trim) : c ∈ t :=
  (trimStart_isSuffix t).subset ((trimEnd_isPrefix t.trimStart).subset h)

end Text

end ResourceLookup
