import ResourceLookup.Proofs.Properties.Decoding
import ResourceLookup.Proofs.Properties.Joining
import ResourceLookup.Proofs.Properties.Rendering

/-!
# What is written for a character

However a character is written, it is read back as this one character, it neither ends a key nor
opens or closes a blank stretch, and it does not ask for another line. So the parts of an entry are
told apart and read back, whatever padding there is between them.
-/

namespace ResourceLookup

namespace Escape

variable {d d₁ d₂ d₃ d₄ character : Char}

theorem decode_letter (other : d ≠ 'u') (rest : Text) :
    decode ('\\' :: d :: rest) = (ofLetter d :: ·) <$> decode rest := by
  rw [decode.eq_def]
  simp only
  rw [if_neg (by simp), if_pos other]

theorem decode_code (stands : ofDigits? [d₁, d₂, d₃, d₄] = some character) (rest : Text) :
    decode ('\\' :: 'u' :: d₁ :: d₂ :: d₃ :: d₄ :: rest) = (character :: ·) <$> decode rest := by
  rw [decode.eq_def]
  simp only
  rw [if_neg (by simp), if_neg (by simp), stands]

theorem character?_toNat (c : Char) : character? c.toNat = some c := by
  have valid : c.toNat.isValidChar := c.valid
  have same : Char.ofNat c.toNat = c := Char.ofNat_toNat c
  rw [Char.ofNat, dif_pos valid] at same
  rw [character?, dif_pos valid, same]

end Escape

namespace Rendering

theorem hexValue?_hexDigit :
    ∀ n < 16, ∀ upper, Escape.hexValue? (hexDigit upper n) = some n := by
  decide

theorem plain_hexDigit : ∀ n < 16, ∀ upper, Entry.Plain (hexDigit upper n) := by
  unfold Entry.Plain
  decide

/-- The texts that can stand for a character. -/
inductive Spells (part : Part) (c : Char) : Text → Prop where
  | plain (notEscape : c ≠ '\\') (solid : Text.isBlank c = false)
      (key : part = .key → Entry.isSeparator c = false) : Spells part c [c]
  | space (inside : part = .value) (same : c = ' ') : Spells part c [c]
  | escape {d : Char} (notUnicode : d ≠ 'u') (solid : Text.isBlank d = false)
      (stands : Escape.ofLetter d = c) : Spells part c ['\\', d]
  | code {d₁ d₂ d₃ d₄ : Char} (plain : ∀ d ∈ [d₁, d₂, d₃, d₄], Entry.Plain d)
      (stands : Escape.ofDigits? [d₁, d₂, d₃, d₄] = some c) :
      Spells part c ['\\', 'u', d₁, d₂, d₃, d₄]

theorem controlLetter?_eq_some {c d : Char} (h : controlLetter? c = some d) :
    d ≠ 'u' ∧ Text.isBlank d = false ∧ Escape.ofLetter d = c := by
  rw [controlLetter?] at h
  split at h
  · rename_i tab
    cases h
    exact tab ▸ by decide
  · split at h
    · rename_i feed
      cases h
      exact feed ▸ by decide
    · split at h
      · rename_i carriage
        cases h
        exact carriage ▸ by decide
      · split at h
        · rename_i page
          cases h
          exact page ▸ by decide
        · cases h

theorem Style.Allows.spells {part : Part} {c : Char} {s : Style} (h : s.Allows part c) :
    Spells part c (s.text c) := by
  cases s with
  | plain =>
    obtain ⟨solid, notEscape, key⟩ := h
    exact .plain notEscape solid fun inKey => by simpa [Entry.isSeparator] using key inKey
  | space => exact .space h.1 h.2
  | escaped =>
    obtain ⟨solid, other⟩ := h
    simp only [List.mem_cons, List.not_mem_nil, or_false, not_or] at other
    obtain ⟨notTab, notFeed, notReturn, notPage, notUnicode⟩ := other
    refine .escape notUnicode solid ?_
    rw [Escape.ofLetter, if_neg notTab, if_neg notFeed, if_neg notReturn, if_neg notPage]
  | letter =>
    obtain ⟨d, found⟩ := Option.isSome_iff_exists.1 h
    obtain ⟨notUnicode, solid, stands⟩ := controlLetter?_eq_some found
    rw [text, found]
    exact .escape notUnicode solid stands
  | code u₁ u₂ u₃ u₄ =>
    have basic : c.toNat < 65536 := h
    have n₁ : c.toNat / 4096 < 16 := by omega
    have n₂ : c.toNat / 256 % 16 < 16 := by omega
    have n₃ : c.toNat / 16 % 16 < 16 := by omega
    have n₄ : c.toNat % 16 < 16 := by omega
    refine .code ?_ ?_
    · simp only [List.forall_mem_cons, List.not_mem_nil, false_implies, implies_true, and_true]
      exact ⟨plain_hexDigit _ n₁ u₁, plain_hexDigit _ n₂ u₂, plain_hexDigit _ n₃ u₃,
        plain_hexDigit _ n₄ u₄⟩
    · have number : Escape.hexNumber? [hexDigit u₁ (c.toNat / 4096),
          hexDigit u₂ (c.toNat / 256 % 16), hexDigit u₃ (c.toNat / 16 % 16),
          hexDigit u₄ (c.toNat % 16)] = some c.toNat := by
        simp only [Escape.hexNumber?, List.foldlM_cons, List.foldlM_nil, hexValue?_hexDigit _ n₁,
          hexValue?_hexDigit _ n₂, hexValue?_hexDigit _ n₃, hexValue?_hexDigit _ n₄,
          Option.map_some, Option.bind_eq_bind, Option.bind_some, Option.pure_def,
          Option.some.injEq]
        omega
      rw [Escape.ofDigits?, number]
      exact Escape.character?_toNat c

namespace Spells

variable {part : Part} {c : Char} {t : Text}

/-- It is read back as the character. -/
theorem decode_append (h : Spells part c t) (rest : Text) :
    Escape.decode (t ++ rest) = (c :: ·) <$> Escape.decode rest := by
  cases h with
  | plain notEscape => exact Escape.decode_cons notEscape rest
  | space inside same => exact Escape.decode_cons (same ▸ by decide) rest
  | escape notUnicode solid stands => exact stands ▸ Escape.decode_letter notUnicode rest
  | code plain stands => exact Escape.decode_code stands rest

/-- It does not end a key. -/
theorem splitKey_append (h : Spells .key c t) (rest : Text) :
    Entry.splitKey (t ++ rest) = (t ++ (Entry.splitKey rest).1, (Entry.splitKey rest).2) := by
  cases h with
  | plain notEscape solid key => exact Entry.splitKey_go notEscape (by simp [key rfl, solid])
  | space inside => cases inside
  | escape => exact Entry.splitKey_escape _
  | @code d₁ d₂ d₃ d₄ plain stands =>
    show Entry.splitKey ('\\' :: 'u' :: ([d₁, d₂, d₃, d₄] ++ rest)) = _
    rw [Entry.splitKey_escape, Entry.splitKey_append_of_plain plain]
    rfl

/-- It has no blanks in it, unless it is a space. -/
theorem solid (h : Spells part c t) (other : t ≠ [' ']) : ∀ d ∈ t, Text.isBlank d = false := by
  cases h with
  | plain notEscape solid => exact List.forall_mem_singleton.2 solid
  | space inside same => exact absurd (congrArg ([·]) same) other
  | escape notUnicode solid =>
    exact List.forall_mem_cons.2 ⟨by decide, List.forall_mem_singleton.2 solid⟩
  | code plain =>
    refine List.forall_mem_cons.2 ⟨by decide, List.forall_mem_cons.2 ⟨by decide, ?_⟩⟩
    exact fun d hd => (plain d hd).2.2

theorem ne_nil (h : Spells part c t) : t ≠ [] := by
  cases h <;> simp

/-- It does not have a line end in it. -/
theorem not_mem (h : Spells part c t) : '\n' ∉ t ∧ '\r' ∉ t := by
  by_cases other : t = [' ']
  · subst other
    decide
  · have solid := h.solid other
    constructor <;> (intro mem; cases solid _ mem)

/-- It does not ask for another line. -/
theorem closed (h : Spells part c t) {opening : Text}
    (closed : LogicalLine.continues opening = false) :
    LogicalLine.continues (opening ++ t) = false := by
  have last {d : Char} (other : d ≠ '\\') (ends : (opening ++ t).getLast? = some d) :
      LogicalLine.continues (opening ++ t) = false := by
    apply LogicalLine.continues_of_getLast?
    rw [ends]
    simpa using other
  cases h with
  | plain notEscape => exact last notEscape (by simp)
  | space inside same =>
    have notEscape : c ≠ '\\' := same ▸ by decide
    exact last notEscape (by simp)
  | @escape d notUnicode solid stands =>
    by_cases escape : d = '\\'
    · subst escape
      rw [List.append_cons, LogicalLine.continues_concat_escape,
        LogicalLine.continues_concat_escape, closed]
      rfl
    · exact last escape (by simp)
  | @code d₁ d₂ d₃ d₄ plain stands => exact last (plain d₄ (by simp)).1 (by simp)

end Spells

/-- The texts that stand for the characters of glyphs. -/
def spelled (glyphs : List Glyph) : Text := glyphs.flatMap Glyph.spelling

variable {part : Part} {g : Glyph} {glyphs : List Glyph}

theorem Glyph.Legal.spells (h : g.Legal part) : Spells part g.char g.spelling := h.style.spells

/-- Only what is written as a space is a space. -/
theorem Glyph.Legal.solid (h : g.Legal part) (other : g.style ≠ .space) :
    ∀ d ∈ g.spelling, Text.isBlank d = false := by
  apply h.spells.solid
  obtain ⟨breaks, c, style⟩ := g
  intro same
  cases style with
  | plain =>
    obtain rfl : c = ' ' := List.head_eq_of_cons_eq same
    cases h.style.1
  | space => exact other rfl
  | _ => exact absurd (List.head_eq_of_cons_eq same) (by decide)

theorem Glyph.Legal.trimStart_spelling (h : g.Legal part) (other : g.style ≠ .space) :
    g.spelling.trimStart = g.spelling := by
  obtain ⟨d, rest, written⟩ := List.exists_cons_of_ne_nil h.spells.ne_nil
  have solid : Text.isBlank d = false := h.solid other d (written ▸ List.mem_cons_self)
  rw [written]
  exact Text.trimStart_of_head solid

/-- The first character of a key does not make the line a comment. -/
theorem Glyph.Legal.isIdle_spelling (h : g.Legal .key) (opens : g.Opens .key) :
    LogicalLine.isIdle g.spelling = false := by
  obtain ⟨breaks, c, style⟩ := g
  cases style with
  | plain =>
    obtain ⟨notHash, notBang⟩ : c ≠ '#' ∧ c ≠ '!' := opens.mark rfl rfl
    show LogicalLine.isIdle [c] = false
    simp [LogicalLine.isIdle, notHash, notBang]
  | space => cases h.style.1
  | _ => rfl

/-- Characters are read back from what was written for them. -/
theorem decode_spelled (legal : ∀ g ∈ glyphs, g.Legal part) :
    Escape.decode (spelled glyphs) = .ok (glyphs.map (·.char)) := by
  induction glyphs with
  | nil => rw [spelled, List.flatMap_nil, Escape.decode]; rfl
  | cons g glyphs ih =>
    obtain ⟨first, rest⟩ := List.forall_mem_cons.1 legal
    rw [spelled, List.flatMap_cons, first.spells.decode_append, ← spelled, ih rest]
    rfl

/-- A key goes on to the end of what was written for it. -/
theorem splitKey_spelled (legal : ∀ g ∈ glyphs, g.Legal .key) (rest : Text) :
    Entry.splitKey (spelled glyphs ++ rest) =
      (spelled glyphs ++ (Entry.splitKey rest).1, (Entry.splitKey rest).2) := by
  induction glyphs with
  | nil => rfl
  | cons g glyphs ih =>
    obtain ⟨first, more⟩ := List.forall_mem_cons.1 legal
    rw [spelled, List.flatMap_cons, List.append_assoc, first.spells.splitKey_append, ← spelled,
      ih more]
    simp

/-- A part of an entry neither starts nor ends with a blank. -/
theorem LegalPart.trim_spelled (h : LegalPart part glyphs) :
    (spelled glyphs).trim = spelled glyphs := by
  rw [Text.trim_eq_self_iff]
  constructor
  · cases glyphs with
    | nil => rfl
    | cons g glyphs =>
      have legal := h.all g List.mem_cons_self
      obtain ⟨d, rest, written⟩ := List.exists_cons_of_ne_nil legal.spells.ne_nil
      have solid := legal.solid (h.first g rfl).space d (written ▸ List.mem_cons_self)
      simp [spelled, written, solid]
  · rcases List.eq_nil_or_concat glyphs with rfl | ⟨glyphs, g, rfl⟩
    · rfl
    · have legal := h.all g (by simp)
      rcases List.eq_nil_or_concat g.spelling with nothing | ⟨rest, d, written⟩
      · exact absurd nothing legal.spells.ne_nil
      · have solid := legal.solid (h.last g (by simp)) d (by simp [written])
        simp [spelled, written, solid]

theorem isBlank_of_mem {padding : Text} (h : IsPadding padding) :
    ∀ c ∈ padding, Text.isBlank c = true := by
  intro c hc
  rcases h c hc with rfl | rfl <;> decide

section Separator

variable {separator : Char}

theorem isSeparator_of_eq (h : separator = '=' ∨ separator = ':') :
    Entry.isSeparator separator = true := by
  rcases h with rfl | rfl <;> rfl

/-- A separator is neither padding nor the beginning of an escape. -/
theorem solid_separator (h : separator = '=' ∨ separator = ':') :
    Text.isBlank separator = false ∧ separator ≠ '\\' := by
  rcases h with rfl | rfl <;> decide

end Separator

namespace Pair

/-- What stands behind the key, on one line. -/
def behindKey (p : Pair) : Text :=
  p.gap ++ p.separator :: (p.lead ++ (spelled p.value ++ p.trail))

/-- The logical line of an entry. -/
def logical (p : Pair) : Text := spelled p.key ++ p.behindKey

variable {p : Pair}

/-- The key ends where its glyphs end. -/
theorem Legal.splitKey_logical (h : p.Legal) :
    Entry.splitKey p.logical = (spelled p.key, p.behindKey) := by
  have stops : Entry.splitKey p.behindKey = ([], p.behindKey) := by
    rw [behindKey]
    cases gap : p.gap with
    | nil =>
      have stops := isSeparator_of_eq h.separator
      exact Entry.splitKey_stop (solid_separator h.separator).2 (by simp [stops])
    | cons c gap' =>
      have blank := isBlank_of_mem h.padding.2.1 c (by simp [gap])
      have notEscape : c ≠ '\\' := by
        rintro rfl
        cases blank
      exact Entry.splitKey_stop notEscape (by simp [blank])
  rw [logical, splitKey_spelled h.key.all, stops, List.append_nil]

/-- The value is what is left when the separator and the padding are taken away. -/
theorem Legal.valueText_behindKey (h : p.Legal) :
    Entry.valueText p.behindKey = spelled p.value := by
  obtain ⟨-, gap, lead, trail⟩ := h.padding
  have separator (rest : Text) : Text.trimStart (p.separator :: rest) = p.separator :: rest :=
    Text.trimStart_of_head (solid_separator h.separator).1
  rw [Entry.valueText, behindKey, Text.trimStart_append_of_blank (isBlank_of_mem gap), separator,
    Entry.dropSeparator, if_pos (isSeparator_of_eq h.separator),
    Text.trimStart_append_of_blank (isBlank_of_mem lead), ← Text.trim,
    Text.trim_append_of_blank (isBlank_of_mem trail), h.value.trim_spelled]

/-- The entry is read back from its logical line. -/
theorem Legal.decode_logical (h : p.Legal) : Entry.decode p.logical = .ok p.entry := by
  rw [Entry.decode_eq_ok_iff, h.splitKey_logical, h.valueText_behindKey]
  exact ⟨decode_spelled h.key.all, decode_spelled h.value.all⟩

end Pair

end Rendering

end ResourceLookup
