import ResourceLookup.Proofs.Text.Trimming
import ResourceLookup.Properties.Entry

/-!
# What is read back from a line

Decoding never makes a text longer, and it makes one shorter wherever there is an escape. So a name
and a value that were written as `name: value` are read back as they are only if nothing in them
asks to be decoded, ends the name early or is trimmed away.
-/

namespace ResourceLookup

/-- What a function made of a result that is there. -/
theorem map_eq_ok_iff {ε α β : Type} {f : α → β} {outcome : Except ε α} {b : β} :
    f <$> outcome = .ok b ↔ ∃ a, outcome = .ok a ∧ f a = b := by
  cases outcome with
  | error e =>
    constructor
    · intro h
      cases h
    · rintro ⟨a, h, -⟩
      cases h
  | ok a =>
    show Except.ok (f a) = .ok b ↔ _
    simp

namespace Escape

theorem decode_cons {c : Char} (other : c ≠ '\\') (t : Text) :
    decode (c :: t) = (c :: ·) <$> decode t := by
  rw [decode.eq_def]
  exact if_pos other

/-- Without a backslash there is nothing to decode. -/
theorem decode_of_not_mem {t : Text} (h : '\\' ∉ t) : decode t = .ok t := by
  induction t with
  | nil => rw [decode]
  | cons c t ih =>
    have other : c ≠ '\\' := fun same => h (same ▸ List.mem_cons_self)
    rw [decode_cons other, ih fun later => h (List.mem_cons_of_mem _ later)]
    rfl

/-- An escape stands for one character, at the cost of two or of six. -/
theorem decode_escape {e : Char} {t out : Text} (h : decode ('\\' :: e :: t) = .ok out) :
    ∃ character rest out', out = character :: out' ∧ decode rest = .ok out' ∧
      (rest = t ∨ rest.length + 4 ≤ t.length) := by
  rw [decode.eq_def] at h
  simp only at h
  rw [if_neg (by simp)] at h
  split at h
  · obtain ⟨out', decoded, rfl⟩ := map_eq_ok_iff.1 h
    exact ⟨_, t, out', rfl, decoded, .inl rfl⟩
  · split at h
    · split at h
      · obtain ⟨out', decoded, rfl⟩ := map_eq_ok_iff.1 h
        exact ⟨_, _, out', rfl, decoded, .inr (by simp)⟩
      · cases h
    · cases h

theorem length_le_of_kept_or_shorter {t out : Text}
    (h : '\\' ∉ t ∧ out = t ∨ out.length < t.length) : out.length ≤ t.length := by
  obtain ⟨-, rfl⟩ | shorter := h
  · exact Nat.le_refl _
  · exact Nat.le_of_lt shorter

/-- Decoding keeps the texts without backslashes and shortens all others. -/
theorem decode_cases {t out : Text} (h : decode t = .ok out) :
    '\\' ∉ t ∧ out = t ∨ out.length < t.length := by
  fun_induction decode t generalizing out with
  | case1 =>
    cases h
    exact .inl ⟨List.not_mem_nil, rfl⟩
  | case2 c rest other ih =>
    obtain ⟨out', decoded, rfl⟩ := map_eq_ok_iff.1 h
    rcases ih decoded with ⟨plain, rfl⟩ | shorter
    · refine .inl ⟨?_, rfl⟩
      intro mem
      rcases List.mem_cons.1 mem with same | mem
      · exact other same.symm
      · exact plain mem
    · exact .inr (by simpa using shorter)
  | case3 c backslash =>
    cases h
    exact .inr (by simp)
  | case4 c backslash e rest other ih =>
    obtain ⟨out', decoded, rfl⟩ := map_eq_ok_iff.1 h
    have bound : out'.length ≤ rest.length := length_le_of_kept_or_shorter (ih decoded)
    exact .inr (by simp only [List.length_cons]; omega)
  | case5 c backslash e unicode d₁ d₂ d₃ d₄ rest character found ih =>
    obtain ⟨out', decoded, rfl⟩ := map_eq_ok_iff.1 h
    have bound : out'.length ≤ rest.length := length_le_of_kept_or_shorter (ih decoded)
    exact .inr (by simp only [List.length_cons]; omega)
  | case6 => cases h
  | case7 => cases h

theorem length_decode_le {t out : Text} (h : decode t = .ok out) : out.length ≤ t.length :=
  length_le_of_kept_or_shorter (decode_cases h)

end Escape

namespace Entry

/-- A character that neither ends a name nor asks to be decoded. -/
def Plain (c : Char) : Prop := c ≠ '\\' ∧ isSeparator c = false ∧ Text.isBlank c = false

section Equations

variable {c : Char} {rest : Text}

theorem splitKey_stop (other : c ≠ '\\') (stops : (isSeparator c || Text.isBlank c) = true) :
    splitKey (c :: rest) = ([], c :: rest) := by
  rw [splitKey.eq_def]
  simp only
  rw [if_neg other, if_pos stops]

theorem splitKey_go (other : c ≠ '\\') (goes : ¬ (isSeparator c || Text.isBlank c) = true) :
    splitKey (c :: rest) = (c :: (splitKey rest).1, (splitKey rest).2) := by
  rw [splitKey.eq_def]
  simp only
  rw [if_neg other, if_neg goes]

theorem splitKey_escape (d : Char) :
    splitKey ('\\' :: d :: rest) = ('\\' :: d :: (splitKey rest).1, (splitKey rest).2) := by
  rw [splitKey.eq_def]
  exact if_pos rfl

end Equations

theorem splitKey_append_of_plain {name : Text} (plain : ∀ c ∈ name, Plain c) (rest : Text) :
    splitKey (name ++ rest) = (name ++ (splitKey rest).1, (splitKey rest).2) := by
  induction name with
  | nil => rfl
  | cons c name ih =>
    obtain ⟨⟨notEscape, notSeparator, notBlank⟩, plain⟩ := List.forall_mem_cons.1 plain
    rw [List.cons_append, splitKey_go notEscape (by simp [notSeparator, notBlank]), ih plain]
    rfl

theorem splitKey_of_plain {name : Text} (plain : ∀ c ∈ name, Plain c) (rest : Text) :
    splitKey (name ++ ':' :: rest) = (name, ':' :: rest) := by
  rw [splitKey_append_of_plain plain, splitKey_stop (by decide) (by decide), List.append_nil]

/-- What is written behind a name: the separator that ends it and a blank. -/
theorem splitKey_separator (behind : Text) : (splitKey (':' :: ' ' :: behind)).1 = [] := by
  rw [splitKey_stop (by decide) (by decide)]

/-- A name that ends in a backslash takes the separator with it. -/
theorem splitKey_escaped_separator (behind : Text) :
    (splitKey ('\\' :: ':' :: ' ' :: behind)).1 = ['\\', ':'] := by
  rw [splitKey_escape, splitKey_stop (by decide) (by decide)]

/-- At most the separator is taken for a part of the name. -/
theorem length_splitKey_le (name behind : Text) :
    (splitKey (name ++ ':' :: ' ' :: behind)).1.length ≤ name.length + 1 := by
  induction name using splitKey.induct with
  | case1 => simp [splitKey_separator]
  | case2 => simp [splitKey_escaped_separator]
  | case3 d rest ih =>
    rw [List.cons_append, List.cons_append, splitKey_escape]
    simpa using ih
  | case4 c rest other stops =>
    rw [List.cons_append, splitKey_stop other stops]
    exact Nat.zero_le _
  | case5 c rest other goes ih =>
    rw [List.cons_append, splitKey_go other goes]
    simpa using ih

/-- A name that was written is read back as no longer a name, and as it is only if it is plain. -/
theorem key_of_written {name behind key : Text}
    (h : Escape.decode (splitKey (name ++ ':' :: ' ' :: behind)).1 = .ok key) :
    key.length ≤ name.length ∧ (key = name → ∀ c ∈ name, Plain c) := by
  induction name using splitKey.induct generalizing key with
  | case1 =>
    rw [List.nil_append, splitKey_separator, Escape.decode_of_not_mem List.not_mem_nil] at h
    cases h
    exact ⟨Nat.le_refl _, by simp⟩
  | case2 =>
    rw [List.singleton_append, splitKey_escaped_separator] at h
    cases h
    exact ⟨Nat.le_refl _, fun same => absurd same (by decide)⟩
  | case3 d rest ih =>
    rw [List.cons_append, List.cons_append, splitKey_escape] at h
    obtain ⟨character, left, key', rfl, decoded, cost⟩ := Escape.decode_escape h
    have bound : key'.length ≤ rest.length := by
      rcases cost with rfl | cost
      · exact (ih decoded).1
      · have kept := length_splitKey_le rest behind
        have shorter := Escape.length_decode_le decoded
        omega
    refine ⟨by simp only [List.length_cons]; omega, ?_⟩
    intro same
    have lengths := congrArg List.length same
    simp only [List.length_cons] at lengths
    omega
  | case4 c rest other stops =>
    rw [List.cons_append, splitKey_stop other stops, Escape.decode_of_not_mem List.not_mem_nil] at h
    cases h
    exact ⟨Nat.zero_le _, by simp⟩
  | case5 c rest other goes ih =>
    rw [List.cons_append, splitKey_go other goes, Escape.decode_cons other] at h
    obtain ⟨key', decoded, rfl⟩ := map_eq_ok_iff.1 h
    obtain ⟨bound, plain⟩ := ih decoded
    refine ⟨Nat.succ_le_succ bound, ?_⟩
    intro same
    refine List.forall_mem_cons.2 ⟨⟨other, ?_⟩, plain (List.cons.inj same).2⟩
    simpa using goes

/-- The two halves of a line are decoded one by one. -/
theorem decode_eq_ok_iff {line : Text} {e : Entry} :
    decode line = .ok e ↔ Escape.decode (splitKey line).1 = .ok e.key ∧
      Escape.decode (valueText (splitKey line).2) = .ok e.value := by
  obtain ⟨key, value⟩ := e
  simp only [decode]
  cases Escape.decode (splitKey line).1 with
  | error text => simp [bind, Except.bind]
  | ok key' =>
    cases Escape.decode (valueText (splitKey line).2) with
    | error text => simp [bind, Except.bind]
    | ok value' => simp [bind, Except.bind, pure, Except.pure]

/-- What is written behind a name is the value, with blanks around it. -/
theorem valueText_separator (behind : Text) : valueText (':' :: ' ' :: behind) = behind.trim := by
  rfl

/-- Reading a line that starts with a plain name. -/
theorem decode_of_plain {name : Text} (plain : ∀ c ∈ name, Plain c) {behind : Text} {e : Entry} :
    decode (name ++ ':' :: ' ' :: behind) = .ok e ↔
      e.key = name ∧ Escape.decode behind.trim = .ok e.value := by
  have unescaped : '\\' ∉ name := fun mem => (plain _ mem).1 rfl
  rw [decode_eq_ok_iff, splitKey_of_plain plain, valueText_separator,
    Escape.decode_of_not_mem unescaped, Except.ok.injEq, eq_comm]

/-- If a name is read back from the line that it starts, it is plain. -/
theorem plain_of_decode {behind : Text} {e : Entry}
    (h : decode (e.key ++ ':' :: ' ' :: behind) = .ok e) : ∀ c ∈ e.key, Plain c :=
  (key_of_written (decode_eq_ok_iff.1 h).1).2 rfl

theorem dropSeparator_isSuffix (t : Text) : dropSeparator t <:+ t := by
  cases t with
  | nil => exact List.suffix_rfl
  | cons c t =>
    rw [dropSeparator]
    split
    · exact List.suffix_cons c t
    · exact List.suffix_rfl

/-- A value is no longer than the line that it was read from. -/
theorem length_value_le {line : Text} {e : Entry} (h : decode line = .ok e) :
    e.value.length ≤ line.length := by
  have decoded := Escape.length_decode_le (decode_eq_ok_iff.1 h).2
  have trimmed := Text.length_trim_le (dropSeparator (splitKey line).2.trimStart)
  have behind : dropSeparator (splitKey line).2.trimStart <:+ (splitKey line).2 :=
    (dropSeparator_isSuffix _).trans (Text.trimStart_isSuffix _)
  have cut : (splitKey line).2 <:+ line := ⟨_, splitKey_append line⟩
  calc e.value.length
      ≤ (valueText (splitKey line).2).length := decoded
    _ ≤ (dropSeparator (splitKey line).2.trimStart).length := trimmed
    _ ≤ (splitKey line).2.length := behind.length_le
    _ ≤ line.length := cut.length_le

end Entry

end ResourceLookup
