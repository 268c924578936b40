import ResourceLookup.Key.Normal
import ResourceLookup.Key.Token

/-!
# Well-formed keys

A well-formed key is not empty, does not start with a tight delimiter, does not end with any
delimiter, writes neither two tight delimiters nor two `?` in a row, and has no blank. The main
statement, `isValid_normalize`, says that the normal form of a well-formed key is well formed.
-/

namespace ResourceLookup.Key

/-- Whether a character is written twice in a row somewhere in the text. -/
def hasDouble (c : Char) : Text → Bool
  | a :: b :: rest => (a == c && b == c) || hasDouble c (b :: rest)
  | _ => false

/-- Whether a text is a well-formed key. -/
def isValid (raw : Text) : Bool :=
  !raw.isEmpty
    && raw.head? != some '.'
    && !raw.getLast?.any isDelimiter
    && !hasDouble '.' raw
    && !hasDouble '?' raw
    && (Token.scan raw).all Token.isProper

/-- The conditions on a well-formed key, one by one. -/
theorem isValid_iff {raw : Text} :
    isValid raw = true ↔ raw ≠ [] ∧ raw.head? ≠ some '.' ∧ raw.getLast?.any isDelimiter = false ∧
      hasDouble '.' raw = false ∧ hasDouble '?' raw = false ∧
        ∀ c ∈ raw, Text.isBlank c = false := by
  simp [isValid, Token.all_isProper_scan, and_assoc]

theorem hasDouble_cons_cons (c a b : Char) (rest : Text) :
    hasDouble c (a :: b :: rest) = ((a == c && b == c) || hasDouble c (b :: rest)) := rfl

theorem hasDouble_cons {c a : Char} {rest : Text} :
    hasDouble c (a :: rest) = false ↔
      ¬ (a = c ∧ rest.head? = some c) ∧ hasDouble c rest = false := by
  cases rest with
  | nil => simp [hasDouble]
  | cons b rest => simp [hasDouble]

theorem hasDouble_dropWhile {c : Char} {t : Text} (p : Char → Bool) (h : hasDouble c t = false) :
    hasDouble c (t.dropWhile p) = false := by
  induction t with
  | nil => exact h
  | cons a t ih =>
    rw [List.dropWhile_cons]
    split
    · exact ih (hasDouble_cons.1 h).2
    · exact h

/-- No tight delimiter is doubled by attaching one where none stands. -/
theorem hasDouble_normalize_tight {t : Text} (h : hasDouble '.' t = false) :
    hasDouble '.' (normalize t) = false := by
  induction t with
  | nil => rfl
  | cons c t ih =>
    obtain ⟨notDouble, rest⟩ := hasDouble_cons.1 h
    rw [normalize_cons, attach]
    split
    · rename_i loose
      exact hasDouble_cons.2 ⟨by simp [loose], hasDouble_dropWhile _ (ih rest)⟩
    · split
      · exact ih rest
      · refine hasDouble_cons.2 ⟨?_, ih rest⟩
        rintro ⟨rfl, first⟩
        cases t with
        | nil => simp at first
        | cons d t =>
          have notTight : d ≠ '.' := fun tight => notDouble ⟨rfl, by simp [tight]⟩
          rw [head?_normalize_cons notTight] at first
          exact notTight (Option.some.inj first)

theorem hasDouble_normalize_single {t : Text} (h : hasDouble '?' t = false) :
    hasDouble '?' (normalize t) = false := by
  induction t with
  | nil => rfl
  | cons c t ih =>
    obtain ⟨notDouble, rest⟩ := hasDouble_cons.1 h
    rw [normalize_cons, attach]
    split
    · rename_i loose
      exact hasDouble_cons.2 ⟨by simp [loose], hasDouble_dropWhile _ (ih rest)⟩
    · split
      · exact ih rest
      · refine hasDouble_cons.2 ⟨?_, ih rest⟩
        rintro ⟨rfl, first⟩
        cases t with
        | nil => simp at first
        | cons d t =>
          have notSingle : d ≠ '?' := fun single => notDouble ⟨rfl, by simp [single]⟩
          by_cases tight : d = '.'
          · subst tight
            rw [normalize_cons, attach_tight] at first
            split at first
            · rename_i loose
              simp [loose] at first
            · simp at first
          · rw [head?_normalize_cons tight] at first
            exact notSingle (Option.some.inj first)

/-- Dropping leading delimiters leaves a last character that is none. -/
theorem getLast?_dropWhile {t : Text} (h : t.getLast?.any isDelimiter = false) :
    (t.dropWhile isDelimiter).getLast? = t.getLast? := by
  induction t with
  | nil => rfl
  | cons c t ih =>
    rw [List.dropWhile_cons]
    split
    · rename_i delimiter
      cases t with
      | nil => simp [delimiter] at h
      | cons d t =>
        rw [List.getLast?_cons_cons] at h ⊢
        exact ih h
    · rfl

/-- Attaching a character to a text that ends in no delimiter leaves the end as it is. -/
theorem getLast?_attach (c : Char) {rest : Text} (nonempty : rest ≠ [])
    (h : rest.getLast?.any isDelimiter = false) :
    (attach c rest).getLast? = rest.getLast? := by
  have cons (u : Text) (hu : u.getLast? = rest.getLast?) :
      (c :: u).getLast? = rest.getLast? := by
    cases u with
    | nil => exact absurd (List.getLast?_eq_none_iff.1 hu.symm) nonempty
    | cons d u => rw [List.getLast?_cons_cons, hu]
  unfold attach
  split
  · exact cons _ (getLast?_dropWhile h)
  · split
    · rfl
    · exact cons _ rfl

/-- A text keeps its last character when that is no delimiter. -/
theorem getLast?_normalize {t : Text} (h : t.getLast?.any isDelimiter = false) :
    (normalize t).getLast? = t.getLast? := by
  induction t with
  | nil => rfl
  | cons c t ih =>
    cases t with
    | nil =>
      have notDelimiter : isDelimiter c = false := by simpa using h
      simp [normalize_cons, attach_of_isDelimiter_eq_false notDelimiter]
    | cons d t =>
      rw [List.getLast?_cons_cons] at h ⊢
      have last := ih h
      rw [normalize_cons, getLast?_attach c (by simp) (by rw [last]; exact h), last]

/-- The normal form of a well-formed key is well formed. -/
theorem isValid_normalize {raw : Text} (h : isValid raw = true) :
    isValid (normalize raw) = true := by
  rw [isValid_iff] at h ⊢
  obtain ⟨nonempty, first, last, tight, single, blank⟩ := h
  refine ⟨by simpa using nonempty, ?_, ?_, hasDouble_normalize_tight tight,
    hasDouble_normalize_single single, fun c hc => blank c (mem_of_mem_normalize hc)⟩
  · cases raw with
    | nil => exact absurd rfl nonempty
    | cons c rest =>
      have notTight : c ≠ '.' := by simpa using first
      rw [head?_normalize_cons notTight]
      simpa using notTight
  · rw [getLast?_normalize last]
    exact last

end ResourceLookup.Key
