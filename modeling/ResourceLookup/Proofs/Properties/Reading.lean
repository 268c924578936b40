import ResourceLookup.Proofs.Properties.Spelling
import ResourceLookup.Proofs.Properties.Writing

/-!
# How renderings are read

A reader that stands somewhere on a line knows the logical line as far as it goes: `Cursor` is such
a place. What is written for a character moves a cursor on, and so do breaks and padding; the
logical line grows by what is written for the characters and by the padding between the parts, and
by nothing else. So every rendering is read back as the entries that were written.
-/

namespace ResourceLookup

namespace Rendering

/-- What comes before a line end is a line. A return in it counts only if it is followed by the
feed.
-/
theorem all_lineEnd {line : Text} (whole : '\n' ∉ line) (carriage : Bool) (rest : Text) :
    Lines.all '\n' '\r' (line ++ (lineEnd carriage ++ rest)) =
      (if carriage then line else Lines.strip '\r' line) :: Lines.all '\n' '\r' rest := by
  cases carriage with
  | false =>
    show Lines.all '\n' '\r' (line ++ '\n' :: rest) = _
    rw [Lines.all_append_feed, List.splitOn_eq_singleton whole]
    rfl
  | true =>
    have whole' : '\n' ∉ line ++ ['\r'] := by simpa using whole
    have written : line ++ (lineEnd true ++ rest) = (line ++ ['\r']) ++ '\n' :: rest := by
      simp [lineEnd]
    rw [written, Lines.all_append_feed, List.splitOn_eq_singleton whole', List.map_singleton,
      Lines.strip_concat, if_pos rfl]
    rfl

section Joined

/-- The texts of logical lines, the first of which may have been begun before. -/
def joined (waiting : Option Text) (lines : List Text) : List Text :=
  (LogicalLine.join true 1 (waiting.map (⟨1, ·⟩)) lines).map (·.text)

variable {line : Text} {lines : List Text}

theorem joined_idle (idle : LogicalLine.isIdle line.trimStart = true) :
    joined none (line :: lines) = joined none lines := by
  rw [joined, Option.map_none, LogicalLine.join_idle idle]
  exact LogicalLine.map_text_join 1 rfl

/-- A line that holds something asks for another one, or it completes its logical line. -/
theorem joined_active (waiting : Option Text)
    (active : LogicalLine.isIdle (waiting.getD [] ++ line.trimStart) = false) :
    joined waiting (line :: lines) =
      if LogicalLine.continues (waiting.getD [] ++ line.trimStart) then
        joined (some (waiting.getD [] ++ line.trimStart).dropLast) lines
      else (waiting.getD [] ++ line.trimStart) :: joined none lines := by
  have goes (start : Nat) (text : Text) :
      (LogicalLine.goOn true 2 start text lines).map (·.text) =
        if LogicalLine.continues text then joined (some text.dropLast) lines
        else text :: joined none lines := by
    rw [LogicalLine.goOn]
    split
    · exact LogicalLine.map_text_join 1 rfl
    · rw [List.map_cons]
      exact congrArg _ (LogicalLine.map_text_join 1 rfl)
  cases waiting with
  | none =>
    rw [joined, Option.map_none, LogicalLine.join_active active]
    exact goes ..
  | some waiting =>
    rw [joined, Option.map_some, LogicalLine.join_waiting]
    exact goes ..

end Joined

section Quiet

/-- A text that neither ends a line nor leaves an escape incomplete. -/
structure Quiet (t : Text) : Prop where
  whole : '\n' ∉ t ∧ '\r' ∉ t
  closed : ∀ {opening : Text}, LogicalLine.continues opening = false →
    LogicalLine.continues (opening ++ t) = false

variable {t u : Text} {c : Char}

theorem Spells.quiet {part : Part} (h : Spells part c t) : Quiet t := ⟨h.not_mem, h.closed⟩

theorem quiet_singleton (solid : c ≠ '\n' ∧ c ≠ '\r') (notEscape : c ≠ '\\') : Quiet [c] where
  whole := by simpa [eq_comm] using solid
  closed _ := LogicalLine.continues_of_getLast? (by simpa using notEscape)

theorem Quiet.append (h : Quiet t) (h' : Quiet u) : Quiet (t ++ u) where
  whole := by
    simp only [List.mem_append, not_or]
    exact ⟨⟨h.whole.1, h'.whole.1⟩, h.whole.2, h'.whole.2⟩
  closed closed := by
    rw [← List.append_assoc]
    exact h'.closed (h.closed closed)

theorem quiet_padding (h : IsPadding t) : Quiet t := by
  induction t with
  | nil => exact ⟨by decide, fun closed => by rwa [List.append_nil]⟩
  | cons c t ih =>
    obtain ⟨first, rest⟩ := List.forall_mem_cons.1 h
    have quiet : Quiet [c] := by
      rcases first with rfl | rfl <;> exact quiet_singleton (by decide) (by decide)
    exact quiet.append (ih rest)

theorem quiet_separator (h : c = '=' ∨ c = ':') : Quiet [c] := by
  rcases h with rfl | rfl <;> exact quiet_singleton (by decide) (by decide)

theorem trimStart_padding (h : IsPadding t) : t.trimStart = [] := by
  rw [← List.append_nil t, Text.trimStart_append_of_blank (isBlank_of_mem h), Text.trimStart_nil]

theorem isIdle_append (active : LogicalLine.isIdle t = false) :
    LogicalLine.isIdle (t ++ u) = false := by
  cases t with
  | nil => cases active
  | cons c t => exact active

end Quiet

/-- A place on a line: the logical line that waits for this one, and the line up to the place. -/
structure Cursor where
  waiting : Option Text
  line : Text

namespace Cursor

/-- The logical line up to the place. -/
def logical (c : Cursor) : Text := c.waiting.getD [] ++ c.line.trimStart

/-- The logical lines from here on, if this is how the text goes on. -/
def texts (c : Cursor) (rest : Text) : List Text :=
  joined c.waiting (Lines.all '\n' '\r' (c.line ++ rest))

/-- The place behind some more text on the same line. -/
def ahead (c : Cursor) (t : Text) : Cursor := { c with line := c.line ++ t }

/-- A place behind something that is no comment, with all escapes complete. -/
structure Sound (c : Cursor) : Prop where
  whole : '\n' ∉ c.line ∧ '\r' ∉ c.line
  active : LogicalLine.isIdle c.logical = false
  closed : LogicalLine.continues c.logical = false

variable {c : Cursor} {t : Text}

theorem texts_lineEnd (whole : '\n' ∉ c.line ∧ '\r' ∉ c.line)
    (active : LogicalLine.isIdle c.logical = false) (carriage : Bool) (rest : Text) :
    c.texts (lineEnd carriage ++ rest) =
      if LogicalLine.continues c.logical then
        joined (some c.logical.dropLast) (Lines.all '\n' '\r' rest)
      else c.logical :: joined none (Lines.all '\n' '\r' rest) := by
  have stripped : Lines.strip '\r' c.line = c.line :=
    Lines.strip_of_getLast? fun last => whole.2 (List.mem_of_getLast? last)
  rw [texts, all_lineEnd whole.1, stripped, ite_self]
  exact joined_active c.waiting active

/-- At the end of a line a logical line is complete. -/
theorem Sound.texts_lineEnd (h : c.Sound) (carriage : Bool) (rest : Text) :
    c.texts (lineEnd carriage ++ rest) =
      c.logical :: joined none (Lines.all '\n' '\r' rest) := by
  rw [Cursor.texts_lineEnd h.whole h.active, h.closed]
  rfl

/-- At the end of the text a logical line is complete. -/
theorem Sound.texts_nil (h : c.Sound) : c.texts [] = [c.logical] := by
  rw [texts, List.append_nil, Lines.all_of_not_mem h.whole.1]
  split
  · rename_i nothing
    have active := h.active
    obtain ⟨waiting, line⟩ := c
    obtain rfl : line = [] := List.isEmpty_iff.1 nothing
    cases waiting with
    | none => cases active
    | some waiting => simp [joined, LogicalLine.join, logical]
  · rw [joined_active c.waiting h.active, ← logical, h.closed]
    rfl

/-- Reading a text leads from one place to another and adds to the logical line, however the text
goes on. -/
structure Reads (c : Cursor) (t added : Text) (c' : Cursor) : Prop where
  logical : c'.logical = c.logical ++ added
  texts : ∀ rest, c.texts (t ++ rest) = c'.texts rest

theorem Reads.refl (c : Cursor) : c.Reads [] [] c := ⟨(List.append_nil _).symm, fun _ => rfl⟩

theorem Reads.trans {c' c'' : Cursor} {t t' added added' : Text} (h : c.Reads t added c')
    (h' : c'.Reads t' added' c'') : c.Reads (t ++ t') (added ++ added') c'' where
  logical := by rw [h'.logical, h.logical, List.append_assoc]
  texts rest := by rw [List.append_assoc, h.texts, h'.texts]

/-- More text on the same line. -/
theorem Sound.ahead (h : c.Sound) (quiet : Quiet t)
    (fits : c.line.trimStart = [] → t.trimStart = t) :
    (c.ahead t).Sound ∧ c.Reads t t (c.ahead t) := by
  have logical : (c.ahead t).logical = c.logical ++ t := by
    rw [Cursor.logical, Cursor.ahead, Text.trimStart_append fits, ← List.append_assoc]
    rfl
  refine ⟨⟨?_, ?_, ?_⟩, logical, fun rest => ?_⟩
  · simp only [Cursor.ahead, List.mem_append, not_or]
    exact ⟨⟨h.whole.1, quiet.whole.1⟩, h.whole.2, quiet.whole.2⟩
  · rw [logical]
    exact isIdle_append h.active
  · rw [logical]
    exact quiet.closed h.closed
  · rw [texts, texts, Cursor.ahead, List.append_assoc]

/-- A break leaves no trace. -/
theorem Sound.wrap (h : c.Sound) {b : Break} (padding : IsPadding b.padding) :
    Sound ⟨some c.logical, b.padding⟩ ∧ c.Reads b.text [] ⟨some c.logical, b.padding⟩ := by
  have logical : (Cursor.mk (some c.logical) b.padding).logical = c.logical := by
    rw [Cursor.logical, trimStart_padding padding, List.append_nil]
    rfl
  refine ⟨⟨(quiet_padding padding).whole, ?_, ?_⟩, ?_, fun rest => ?_⟩
  · rw [logical]
    exact h.active
  · rw [logical]
    exact h.closed
  · rw [logical, List.append_nil]
  · have escape : (c.ahead ['\\']).logical = c.logical ++ ['\\'] := by
      rw [Cursor.logical, Cursor.ahead, Text.trimStart_append fun _ => rfl, ← List.append_assoc]
      rfl
    have active : LogicalLine.isIdle (c.ahead ['\\']).logical = false := by
      rw [escape]
      exact isIdle_append h.active
    have more : LogicalLine.continues (c.ahead ['\\']).logical = true := by
      rw [escape, LogicalLine.continues_concat_escape, h.closed]
      rfl
    have whole : '\n' ∉ (c.ahead ['\\']).line ∧ '\r' ∉ (c.ahead ['\\']).line := by
      simp [Cursor.ahead, h.whole]
    have written : c.texts (b.text ++ rest) =
        (c.ahead ['\\']).texts (lineEnd b.carriage ++ (b.padding ++ rest)) := by
      simp [texts, Cursor.ahead, Break.text]
    rw [written, Cursor.texts_lineEnd whole active, if_pos more, escape, List.dropLast_concat]
    rfl

/-- A place on a line that is not empty so far. -/
structure Ready (c : Cursor) : Prop extends c.Sound where
  inked : c.line.trimStart ≠ []

theorem Ready.ahead (h : c.Ready) (quiet : Quiet t) :
    (c.ahead t).Ready ∧ c.Reads t t (c.ahead t) := by
  have fits (nothing : c.line.trimStart = []) : t.trimStart = t := absurd nothing h.inked
  obtain ⟨sound, reads⟩ := h.toSound.ahead quiet fits
  refine ⟨⟨sound, ?_⟩, reads⟩
  rw [Cursor.ahead, Text.trimStart_append fits]
  exact List.append_ne_nil_of_left_ne_nil h.inked t

variable {part : Part} {g : Glyph} {glyphs : List Glyph} {breaks : List Break}

theorem Sound.reads_breaks (h : c.Sound) (padding : ∀ b ∈ breaks, IsPadding b.padding) :
    ∃ c', c'.Sound ∧ c.Reads (breaks.flatMap Break.text) [] c' := by
  induction breaks generalizing c with
  | nil => exact ⟨c, h, .refl c⟩
  | cons b breaks ih =>
    obtain ⟨first, more⟩ := List.forall_mem_cons.1 padding
    obtain ⟨sound, reads⟩ := h.wrap first
    obtain ⟨c', sound', reads'⟩ := ih sound more
    exact ⟨c', sound', reads.trans reads'⟩

/-- A glyph is read as what was written for its character. -/
theorem Ready.reads_glyph (h : c.Ready) (legal : g.Legal part) :
    ∃ c', c'.Ready ∧ c.Reads g.text g.spelling c' := by
  by_cases space : g.style = .space
  · obtain ⟨ready, reads⟩ := h.ahead legal.spells.quiet
    refine ⟨_, ready, ?_⟩
    rw [Glyph.text, legal.space space]
    exact reads
  · -- a break may have taken the place to the beginning of a line
    obtain ⟨c', sound, reads⟩ := h.toSound.reads_breaks legal.breaks
    have kept := legal.trimStart_spelling space
    obtain ⟨sound', reads'⟩ := sound.ahead legal.spells.quiet fun _ => kept
    refine ⟨_, ⟨sound', ?_⟩, reads.trans reads'⟩
    rw [Cursor.ahead, Text.trimStart_append fun _ => kept]
    exact List.append_ne_nil_of_right_ne_nil _ legal.spells.ne_nil

theorem Ready.reads_glyphs (h : c.Ready) (legal : ∀ g ∈ glyphs, g.Legal part) :
    ∃ c', c'.Ready ∧ c.Reads (glyphs.flatMap Glyph.text) (spelled glyphs) c' := by
  induction glyphs generalizing c with
  | nil => exact ⟨c, h, .refl c⟩
  | cons g glyphs ih =>
    obtain ⟨first, more⟩ := List.forall_mem_cons.1 legal
    obtain ⟨c', ready, reads⟩ := h.reads_glyph first
    obtain ⟨c'', ready', reads'⟩ := ih ready more
    exact ⟨c'', ready', reads.trans reads'⟩

/-- The beginning of a text, or of a line between logical lines. -/
def start : Cursor := ⟨none, []⟩

/-- The first thing on a line. -/
theorem reads_first {indent : Text} (padding : IsPadding indent) (quiet : Quiet t)
    (active : LogicalLine.isIdle t = false) (kept : t.trimStart = t) :
    ∃ c', c'.Ready ∧ start.Reads (indent ++ t) t c' := by
  have trimmed : (indent ++ t).trimStart = t := by
    rw [Text.trimStart_append fun _ => kept, trimStart_padding padding, List.nil_append]
  have logical : (Cursor.mk none (indent ++ t)).logical = t := trimmed
  refine ⟨⟨none, indent ++ t⟩, ⟨⟨?_, ?_, ?_⟩, ?_⟩, ⟨logical, fun rest => rfl⟩⟩
  · exact ((quiet_padding padding).append quiet).whole
  · rw [logical]
    exact active
  · rw [logical]
    have closed : LogicalLine.continues ([] ++ t) = false := quiet.closed rfl
    exact closed
  · rw [trimmed]
    rintro rfl
    cases active

end Cursor

namespace Pair

open Cursor

variable {p : Pair} {c : Cursor}

/-- What follows the separator. -/
theorem Legal.reads_value (h : p.Legal) (ready : c.Ready) :
    ∃ c', c'.Ready ∧ c.Reads (p.lead ++ (p.value.flatMap Glyph.text ++ p.trail))
      (p.lead ++ (spelled p.value ++ p.trail)) c' := by
  obtain ⟨-, -, lead, trail⟩ := h.padding
  obtain ⟨ready₁, reads₁⟩ := ready.ahead (quiet_padding lead)
  obtain ⟨c₂, ready₂, reads₂⟩ := ready₁.reads_glyphs h.value.all
  obtain ⟨ready₃, reads₃⟩ := ready₂.ahead (quiet_padding trail)
  exact ⟨_, ready₃, reads₁.trans (reads₂.trans reads₃)⟩

/-- The logical line of an entry, if it does not start with padding. -/
theorem Legal.reads (h : p.Legal) (flush : p.key = [] → p.gap = []) :
    ∃ c', c'.Ready ∧ start.Reads p.text p.logical c' := by
  obtain ⟨indent, gap, -, -⟩ := h.padding
  have separator := quiet_separator h.separator
  cases key : p.key with
  | nil =>
    have solid := solid_separator h.separator
    have active : LogicalLine.isIdle [p.separator] = false := by
      rcases h.separator with same | same <;> rw [same] <;> rfl
    obtain ⟨c₁, ready₁, reads₁⟩ :=
      reads_first indent separator active (Text.trimStart_of_head solid.1)
    obtain ⟨c₂, ready₂, reads₂⟩ := h.reads_value ready₁
    refine ⟨c₂, ready₂, ?_⟩
    have reads := reads₁.trans reads₂
    rw [List.append_assoc] at reads
    rw [text, logical, behindKey, key, flush key]
    exact reads
  | cons g glyphs =>
    have legal := h.key.all
    rw [key, List.forall_mem_cons] at legal
    have opens : g.Opens .key := h.key.first g (by simp [key])
    have kept := legal.1.trimStart_spelling opens.space
    have active := legal.1.isIdle_spelling opens
    obtain ⟨c₁, ready₁, reads₁⟩ := reads_first indent legal.1.spells.quiet active kept
    obtain ⟨c₂, ready₂, reads₂⟩ := ready₁.reads_glyphs legal.2
    obtain ⟨ready₃, reads₃⟩ := ready₂.ahead (quiet_padding gap)
    obtain ⟨ready₄, reads₄⟩ := ready₃.ahead separator
    obtain ⟨c₅, ready₅, reads₅⟩ := h.reads_value ready₄
    refine ⟨c₅, ready₅, ?_⟩
    have reads := reads₁.trans (reads₂.trans (reads₃.trans (reads₄.trans reads₅)))
    have first : g.text = g.spelling := by rw [Glyph.text, opens.breaks]; rfl
    simpa [text, logical, behindKey, key, first, spelled] using reads

/-- Without a key the gap is a part of the indentation. -/
def flushed (p : Pair) : Pair :=
  if p.key = [] then { p with indent := p.indent ++ p.gap, gap := [] } else p

theorem text_flushed (p : Pair) : p.flushed.text = p.text := by
  rw [flushed]
  split
  · rename_i nothing
    simp [text, nothing]
  · rfl

theorem entry_flushed (p : Pair) : p.flushed.entry = p.entry := by
  rw [flushed]
  split <;> rfl

theorem gap_flushed (p : Pair) : p.flushed.key = [] → p.flushed.gap = [] := by
  rw [flushed]
  split
  · exact fun _ => rfl
  · rename_i some
    exact fun nothing => absurd nothing some

theorem Legal.flushed (h : p.Legal) : p.flushed.Legal := by
  rw [Pair.flushed]
  split
  · obtain ⟨indent, gap, lead, trail⟩ := h.padding
    have indent' : IsPadding (p.indent ++ p.gap) := List.forall_mem_append.2 ⟨indent, gap⟩
    exact ⟨h.key, h.value, h.separator, indent', List.forall_mem_nil _, lead, trail⟩
  · exact h

/-- The entry is what there is on the logical line of a pair, whatever comes behind it. -/
theorem Legal.exists_texts (h : p.Legal) :
    ∃ line, Entry.decode line = .ok p.entry ∧
      (∀ carriage rest, start.texts (p.text ++ (lineEnd carriage ++ rest)) =
        line :: start.texts rest) ∧
      start.texts p.text = [line] := by
  obtain ⟨c, ready, reads⟩ := h.flushed.reads p.gap_flushed
  have line : c.logical = p.flushed.logical := reads.logical
  rw [text_flushed] at reads
  refine ⟨c.logical, ?_, fun carriage rest => ?_, ?_⟩
  · rw [line, h.flushed.decode_logical, entry_flushed]
  · rw [reads.texts, ready.texts_lineEnd]
    rfl
  · rw [← List.append_nil p.text, reads.texts, ready.texts_nil]

end Pair

namespace Line

open Cursor

variable {l : Line}

/-- A line that holds nothing, with or without a return at its end, adds nothing. -/
theorem texts_idle {line : Text} (whole : '\n' ∉ line)
    (idle : LogicalLine.isIdle line.trimStart = true)
    (stripped : LogicalLine.isIdle (Text.trimStart (Lines.strip '\r' line)) = true) :
    (∀ carriage rest, start.texts (line ++ (lineEnd carriage ++ rest)) = start.texts rest) ∧
      start.texts line = [] := by
  constructor
  · intro carriage rest
    show joined none (Lines.all '\n' '\r' (line ++ (lineEnd carriage ++ rest))) = _
    rw [all_lineEnd whole, joined_idle (by split <;> assumption)]
    rfl
  · show joined none (Lines.all '\n' '\r' line) = []
    rw [Lines.all_of_not_mem whole]
    split
    · rfl
    · rw [joined_idle idle]
      rfl

theorem isIdle_mark {indent : Text} {mark : Char} (padding : IsPadding indent)
    (marks : mark = '#' ∨ mark = '!') (t : Text) :
    LogicalLine.isIdle (indent ++ mark :: t).trimStart = true := by
  rw [Text.trimStart_append_of_blank (isBlank_of_mem padding)]
  rcases marks with rfl | rfl <;> rfl

/-- What a line adds to the logical lines is its entry, if it has one. -/
theorem Legal.exists_texts (h : l.Legal) :
    ∃ lines : List Text, lines.map Entry.decode = l.contents.toList.map .ok ∧
      (∀ carriage rest, start.texts (l.text ++ (lineEnd carriage ++ rest)) =
        lines ++ start.texts rest) ∧
      start.texts l.text = lines := by
  cases l with
  | pair p =>
    obtain ⟨line, decoded, ended, last⟩ := Pair.Legal.exists_texts h
    exact ⟨[line], by simp [contents, decoded], ended, last⟩
  | comment indent mark t =>
    obtain ⟨padding, marks, whole⟩ := h
    have notCarriage : (indent ++ [mark]).getLast? ≠ some '\r' := by
      rcases marks with rfl | rfl <;> simp
    have notFeed : '\n' ∉ indent ++ mark :: t := by
      have inside := (quiet_padding padding).whole.1
      rcases marks with rfl | rfl <;> simp [inside, whole]
    have stripped : Lines.strip '\r' (indent ++ mark :: t) =
        indent ++ mark :: Lines.strip '\r' t := by
      rw [List.append_cons, Lines.strip_append notCarriage, ← List.append_cons]
    refine ⟨[], rfl, texts_idle notFeed (isIdle_mark padding marks t) ?_⟩
    show LogicalLine.isIdle (Text.trimStart (Lines.strip '\r' (indent ++ mark :: t))) = true
    rw [stripped]
    exact isIdle_mark padding marks _
  | blank padding =>
    have quiet := quiet_padding h
    have stripped : Lines.strip '\r' padding = padding :=
      Lines.strip_of_getLast? fun last => quiet.whole.2 (List.mem_of_getLast? last)
    have idle : LogicalLine.isIdle padding.trimStart = true := by
      rw [trimStart_padding h]
      rfl
    exact ⟨[], rfl, texts_idle quiet.whole.1 idle (stripped.symm ▸ idle)⟩

end Line

variable {r : Rendering}

/-- The logical lines of a rendering hold its entries. -/
theorem Legal.exists_texts (h : r.Legal) :
    ∃ lines : List Text, lines.map Entry.decode = r.entries.map .ok ∧
      Cursor.start.texts r.text = lines := by
  obtain ⟨lines, last⟩ := r
  induction lines with
  | nil =>
    cases last with
    | none => exact ⟨[], rfl, rfl⟩
    | some l =>
      obtain ⟨texts, decoded, -, reads⟩ := Line.Legal.exists_texts (h l (List.mem_singleton_self l))
      refine ⟨texts, ?_, reads⟩
      rw [decoded]
      cases entry : l.contents <;> simp [entries, entry]
  | cons l lines ih =>
    obtain ⟨first, more⟩ := List.forall_mem_cons.1 h
    obtain ⟨texts, decoded, reads, -⟩ := Line.Legal.exists_texts first
    obtain ⟨texts', decoded', reads'⟩ := ih more
    refine ⟨texts ++ texts', ?_, ?_⟩
    · rw [List.map_append, decoded, decoded']
      cases entry : l.1.contents <;> simp [entries, entry]
    · rw [← reads', ← reads l.2]
      simp [text]

end Rendering

namespace Properties

/-- Where there is nothing to complain about the numbers of the lines do not matter. -/
theorem map_ofLine_of_decode {lines : List LogicalLine} {listed : List Entry}
    (decoded : (lines.map (·.text)).map Entry.decode = listed.map .ok) :
    lines.map Entry.ofLine = listed.map .ok := by
  induction lines generalizing listed with
  | nil =>
    obtain rfl : listed = [] := List.map_eq_nil_iff.1 decoded.symm
    rfl
  | cons line lines ih =>
    cases listed with
    | nil => cases decoded
    | cons e listed =>
      obtain ⟨first, rest⟩ := List.cons.inj decoded
      rw [List.map_cons, List.map_cons, ih rest, Entry.ofLine, first]
      rfl

/-- A text whose logical lines all hold entries is read without a warning. -/
theorem parse_of_texts {t : Text} {lines : List Text} {listed : List Entry}
    (texts : Rendering.Cursor.start.texts t = lines)
    (decoded : lines.map Entry.decode = listed.map .ok) :
    parse (.ofText t) = ⟨.ok listed, []⟩ := by
  have results : lineResults (.ofText t) = listed.map .ok := by
    rw [lineResults_ofText]
    rw [← texts] at decoded
    exact map_ofLine_of_decode decoded
  rw [parse, results, entries_map_ok, complaints_map_ok]
  rfl

/-- Every list of entries can be written as a property stream, and it is read back from every one of
its renderings, without a warning. -/
theorem parse_rendering :
    (∀ listed : List Entry, ∃ r : Rendering, r.Legal ∧ r.entries = listed) ∧
    ∀ r : Rendering, r.Legal → parse (.ofText r.text) = ⟨.ok r.entries, []⟩ := by
  refine ⟨Rendering.exists_legal, ?_⟩
  intro r legal
  obtain ⟨lines, decoded, texts⟩ := legal.exists_texts
  exact parse_of_texts texts decoded

/-- Escapes of every kind, a line broken inside a value, lines that hold nothing, and both ways to
end a line. -/
theorem parse_rendering_of_palette :
    let r : Rendering :=
      { lines :=
          [(.comment [' '] '#' " a palette\\".toList, true),
            (.pair
              { indent := ['\t']
                key := [⟨[], '#', .escaped⟩, ⟨[], 'é', .code true false true false⟩,
                  ⟨[⟨true, [' ']⟩], '=', .escaped⟩, ⟨[], 'n', .plain⟩]
                gap := [' ']
                separator := ':'
                lead := []
                value := [⟨[], '=', .plain⟩, ⟨[], '\\', .escaped⟩, ⟨[], ' ', .space⟩,
                  ⟨[⟨false, [' ', '\t']⟩, ⟨true, []⟩], '\t', .letter⟩, ⟨[], '\\', .escaped⟩]
                trail := [' ', '\t'] }, true),
            (.blank ['\t'], false)]
        last := some (.pair ⟨[], [], [], '=', [], [], []⟩) }
    r.text =
        " # a palette\\\r\n\t\\#\\u00E9\\\r\n \\=n :=\\\\ \\\n \t\\\r\n\\t\\\\ \t\r\n\t\n=".toList ∧
      parse (.ofText r.text) = ⟨.ok [⟨"#é=n".toList, "=\\ \t\\".toList⟩, ⟨[], []⟩], []⟩ := by
  intro r
  refine ⟨by decide +kernel, ?_⟩
  exact parse_rendering.2 r (by decide +kernel)

end Properties

end ResourceLookup
