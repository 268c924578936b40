import ResourceLookup.Proofs.Properties.Lines
import ResourceLookup.Proofs.Text.Trimming
import ResourceLookup.Properties.Stream

/-!
# How lines are joined

What becomes of lines does not depend on their numbers, and idle ones leave no trace. A line that
opens a logical one stays its beginning, however often the logical line continues; what else there
is in it, and all that comes later, is taken from the lines that follow.
-/

namespace ResourceLookup

namespace LogicalLine

/-- Goes on behind the text of a logical line, which is complete or else waits for the lines that
are left. -/
def goOn (ended : Bool) (number start : Nat) (text : Text) (rest : List Text) :
    List LogicalLine :=
  if continues text then join ended number (some ⟨start, text.dropLast⟩) rest
  else ⟨start, text⟩ :: join ended number none rest

variable {ended : Bool} {number start : Nat} {line text opening : Text} {lines : List Text}

theorem join_idle (h : isIdle line.trimStart = true) :
    join ended number none (line :: lines) = join ended (number + 1) none lines := by
  simp [join, h]

theorem join_active (h : isIdle line.trimStart = false) :
    join ended number none (line :: lines) =
      goOn ended (number + 1) number line.trimStart lines := by
  simp [join, goOn, h]

theorem join_waiting (waiting : LogicalLine) :
    join ended number (some waiting) (line :: lines) =
      goOn ended (number + 1) waiting.number (waiting.text ++ line.trimStart) lines := by
  simp [join, goOn]

theorem join_append_of_idle {idle : List Text} (h : ∀ line ∈ idle, isIdle line.trimStart = true) :
    join ended number none (idle ++ lines) = join ended (number + idle.length) none lines := by
  induction idle generalizing number with
  | nil => rfl
  | cons line idle ih =>
    obtain ⟨first, rest⟩ := List.forall_mem_cons.1 h
    rw [List.cons_append, join_idle first, ih rest, List.length_cons, Nat.add_assoc,
      Nat.add_comm 1]

/-- The numbers of the lines are carried along and decide nothing. -/
theorem map_text_join (other : Nat) {waiting waiting' : Option LogicalLine}
    (same : waiting.map (·.text) = waiting'.map (·.text)) :
    (join ended number waiting lines).map (·.text) =
      (join ended other waiting' lines).map (·.text) := by
  induction lines generalizing number other waiting waiting' with
  | nil =>
    rw [join, join]
    cases ended with
    | false => rfl
    | true => cases waiting <;> cases waiting' <;> simp_all
  | cons line lines ih =>
    have goes (number start other start' : Nat) (text : Text) :
        (goOn ended number start text lines).map (·.text) =
          (goOn ended other start' text lines).map (·.text) := by
      rw [goOn, goOn]
      split
      · exact ih other rfl
      · rw [List.map_cons, List.map_cons, ih other rfl]
    match waiting, waiting', same with
    | some w, some w', same =>
      have texts : w.text = w'.text := Option.some.inj same
      rw [join_waiting, join_waiting, texts]
      exact goes ..
    | none, none, _ =>
      cases idle : isIdle line.trimStart with
      | true =>
        rw [join_idle idle, join_idle idle]
        exact ih _ rfl
      | false =>
        rw [join_active idle, join_active idle]
        exact goes ..

/-- One more backslash asks for another line, or it takes the request back. -/
theorem continues_concat_escape (t : Text) : continues (t ++ ['\\']) = !continues t := by
  have parity (n : Nat) : ((n + 1) % 2 == 1) = !(n % 2 == 1) := by
    rcases Nat.mod_two_eq_zero_or_one n with even | odd
    · have next : (n + 1) % 2 = 1 := by omega
      rw [even, next]
      rfl
    · have next : (n + 1) % 2 = 0 := by omega
      rw [odd, next]
      rfl
  simp [continues, parity]

/-- Only a backslash at the end of a line asks for another line. -/
theorem continues_of_getLast? (h : text.getLast? ≠ some '\\') : continues text = false := by
  rcases List.eq_nil_or_concat text with rfl | ⟨t, c, rfl⟩
  · rfl
  · have other : c ≠ '\\' := by simpa using h
    simp [continues, other]

/-- A line that is plain is a logical line. -/
theorem join_plain (trimmed : line.trimStart = line) (active : isIdle line = false)
    (complete : continues line = false) :
    join ended number none (line :: lines) =
      ⟨number, line⟩ :: join ended (number + 1) none lines := by
  rw [join_active (trimmed.symm ▸ active), trimmed, goOn, if_neg (by simp [complete])]

/-- What a logical line that waits has room for. -/
def room (waiting : Option LogicalLine) : Nat := waiting.elim 0 (·.text.length + 1)

/-- No logical line is longer than what it is joined from. -/
theorem length_lt_of_mem_join {waiting : Option LogicalLine} {joined : LogicalLine}
    (h : joined ∈ join ended number waiting lines) :
    joined.text.length < room waiting + lines.flatten.length + lines.length := by
  induction lines generalizing number waiting with
  | nil =>
    rw [join] at h
    cases ended with
    | false => cases h
    | true =>
      obtain rfl := Option.mem_toList.1 h
      exact Nat.lt_succ_self _
  | cons line lines ih =>
    have trimmed := Text.length_trimStart_le line
    have goes {number start : Nat} {text : Text} (h : joined ∈ goOn ended number start text lines) :
        joined.text.length < text.length + 1 + lines.flatten.length + lines.length := by
      rw [goOn] at h
      split at h
      · have bound := ih h
        simp only [room, Option.elim_some, List.length_dropLast] at bound
        omega
      · rcases List.mem_cons.1 h with rfl | h
        · show text.length < _
          omega
        · have bound := ih h
          simp only [room, Option.elim_none] at bound
          omega
    rw [List.flatten_cons, List.length_append, List.length_cons]
    cases waiting with
    | some w =>
      rw [join_waiting] at h
      have bound := goes h
      rw [List.length_append] at bound
      simp only [room, Option.elim_some]
      omega
    | none =>
      cases idle : isIdle line.trimStart with
      | true =>
        rw [join_idle idle] at h
        have bound := ih h
        simp only [room, Option.elim_none] at bound ⊢
        omega
      | false =>
        rw [join_active idle] at h
        have bound := goes h
        omega

/-- An opening that does not itself ask for another line stays the beginning of its logical line.
All the rest, in this logical line and in those after it, is taken from what follows the opening. -/
theorem exists_goOn_eq (closed : continues opening = false) (behind : Text) :
    ∃ (ending : Text) (later : List LogicalLine),
      goOn true number start (opening ++ behind) lines = ⟨start, opening ++ ending⟩ :: later ∧
        ending.length ≤ behind.length + lines.flatten.length ∧
        ∀ joined ∈ later, joined.text.length < lines.flatten.length + lines.length := by
  -- a text that goes on ends in a backslash, which is not in the opening
  have dropped {behind : Text} (more : continues (opening ++ behind) = true) :
      (opening ++ behind).dropLast = opening ++ behind.dropLast := by
    refine List.dropLast_append_of_ne_nil ?_
    rintro rfl
    rw [List.append_nil, closed] at more
    cases more
  induction lines generalizing number behind with
  | nil =>
    cases more : continues (opening ++ behind) with
    | false => exact ⟨behind, [], by simp [goOn, more, join], by simp, by simp⟩
    | true =>
      refine ⟨behind.dropLast, [], ?_, by simp, by simp⟩
      rw [goOn, if_pos more, dropped more]
      rfl
  | cons line lines ih =>
    have trimmed := Text.length_trimStart_le line
    cases more : continues (opening ++ behind) with
    | false =>
      refine ⟨behind, join true number none (line :: lines), by simp [goOn, more], by simp, ?_⟩
      intro joined mem
      simpa [room] using length_lt_of_mem_join mem
    | true =>
      obtain ⟨ending, later, joins, short, rest⟩ :=
        @ih (number + 1) (behind.dropLast ++ line.trimStart)
      refine ⟨ending, later, ?_, ?_, ?_⟩
      · rw [goOn, if_pos more, dropped more, join_waiting, ← joins, List.append_assoc]
      · rw [List.length_append, List.length_dropLast] at short
        rw [List.flatten_cons, List.length_append]
        omega
      · intro joined mem
        have bound := rest joined mem
        rw [List.flatten_cons, List.length_append, List.length_cons]
        omega

end LogicalLine

namespace Properties

theorem lineResults_ofText (t : Text) :
    lineResults (.ofText t) =
      (LogicalLine.join true 1 none (Lines.all '\n' '\r' t)).map Entry.ofLine := by
  rw [lineResults, LogicalLine.ofSource, Source.lines_ofText]
  rfl

/-- The entries of a text are those on its logical lines, whatever the numbers of these. -/
theorem outcome_parse_ofText (t : Text) :
    (parse (.ofText t)).outcome =
      .ok (((LogicalLine.join true 1 none (Lines.all '\n' '\r' t)).map (·.text)).filterMap
        fun line => (Entry.decode line).toOption) := by
  show Except.ok (entries (lineResults (.ofText t))) = _
  rw [entries, lineResults_ofText, List.filterMap_map, List.filterMap_map]
  congr 2
  funext line
  show (Entry.ofLine line).toOption = (Entry.decode line.text).toOption
  rw [Entry.ofLine]
  cases Entry.decode line.text <;> rfl

/-- An entry that is read from a text is read from a logical line. -/
theorem exists_of_mem_parse {t : Text} {listed : List Entry}
    (read : (parse (.ofText t)).outcome = .ok listed) {e : Entry} (mem : e ∈ listed) :
    ∃ joined ∈ LogicalLine.join true 1 none (Lines.all '\n' '\r' t),
      Entry.decode joined.text = .ok e := by
  rw [outcome_parse_ofText, Except.ok.injEq] at read
  rw [← read, List.mem_filterMap] at mem
  obtain ⟨text, mem, decoded⟩ := mem
  obtain ⟨joined, hj, rfl⟩ := List.mem_map.1 mem
  refine ⟨joined, hj, ?_⟩
  cases outcome : Entry.decode joined.text with
  | error text =>
    rw [outcome] at decoded
    cases decoded
  | ok entry =>
    rw [outcome] at decoded
    exact congrArg Except.ok (Option.some.inj decoded)

end Properties

end ResourceLookup
