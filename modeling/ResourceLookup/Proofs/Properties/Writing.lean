import ResourceLookup.Proofs.Properties.Decoding
import ResourceLookup.Proofs.Properties.Joining
import ResourceLookup.Store.Write

/-!
# Entries on lines of their own

A store is written with one line for each entry, below a header. The header is nothing to a reader.
An entry is read back from its lines exactly if it is safe on a line: `parse_of_lineSafe` and
`lineSafe_of_mem` are the two directions.
-/

namespace ResourceLookup

namespace Entry

/-- An entry that its line tells as it is: nothing ends the key early or opens a comment, and
nothing in the value is decoded, trimmed or cut. -/
structure LineSafe (e : Entry) : Prop where
  key : ∀ c ∈ e.key, c ≠ '=' ∧ c ≠ ':' ∧ c ≠ '\\'
  opening : e.key.head? ≠ some '#' ∧ e.key.head? ≠ some '!'
  value : ∀ c ∈ e.value, c ≠ '\\' ∧ c ≠ '\n'
  trimmed : e.value.head?.any Text.isBlank = false ∧ e.value.getLast?.any Text.isBlank = false

/-- Whether an entry is told by its line as it is. -/
def isLineSafe (e : Entry) : Bool :=
  e.key.all (fun c => c != '=' && c != ':' && c != '\\')
    && e.key.head? != some '#' && e.key.head? != some '!'
    && e.value.all (fun c => c != '\\' && c != '\n')
    && !e.value.head?.any Text.isBlank && !e.value.getLast?.any Text.isBlank

theorem isLineSafe_iff {e : Entry} : e.isLineSafe = true ↔ e.LineSafe := by
  simp only [isLineSafe, Bool.and_eq_true, List.all_eq_true, bne_iff_ne, Bool.not_eq_true',
    and_assoc]
  constructor
  · rintro ⟨key, number, mark, value, first, last⟩
    exact ⟨key, ⟨number, mark⟩, value, ⟨first, last⟩⟩
  · rintro ⟨key, ⟨number, mark⟩, value, ⟨first, last⟩⟩
    exact ⟨key, number, mark, value, first, last⟩

instance (e : Entry) : Decidable e.LineSafe := decidable_of_iff _ isLineSafe_iff

/-- The line of an entry, without its end. -/
def line (e : Entry) : Text := e.key ++ ':' :: ' ' :: e.value

variable {e : Entry} {entries : List Entry}

theorem entryLine_eq (e : Entry) : Tree.entryLine e = e.line ++ ['\n'] := by
  simp [Tree.entryLine, line]

theorem getLast?_line (e : Entry) : e.line.getLast? = some (e.value.getLast?.getD ' ') := by
  simp [line, List.getLast?_cons]

/-- A key starts with a character that is no blank, and so does what it starts. -/
theorem trimStart_key_append (valid : Key.isValid e.key = true) (behind : Text) :
    Text.trimStart (e.key ++ behind) = e.key ++ behind := by
  obtain ⟨nonempty, -, -, -, -, solid⟩ := Key.isValid_iff.1 valid
  obtain ⟨c, key, first⟩ := List.exists_cons_of_ne_nil nonempty
  apply Text.trimStart_of_head
  rw [first]
  exact solid c (first ▸ List.mem_cons_self)

theorem isIdle_key_append (valid : Key.isValid e.key = true) (behind : Text) :
    LogicalLine.isIdle (e.key ++ behind) = false ↔
      e.key.head? ≠ some '#' ∧ e.key.head? ≠ some '!' := by
  obtain ⟨nonempty, -⟩ := Key.isValid_iff.1 valid
  obtain ⟨c, key, first⟩ := List.exists_cons_of_ne_nil nonempty
  simp [LogicalLine.isIdle, first]

namespace LineSafe

theorem plain (safe : e.LineSafe) (valid : Key.isValid e.key = true) : ∀ c ∈ e.key, Plain c := by
  obtain ⟨-, -, -, -, -, solid⟩ := Key.isValid_iff.1 valid
  intro c hc
  obtain ⟨notEquals, notColon, notEscape⟩ := safe.key c hc
  exact ⟨notEscape, by simp [isSeparator, notEquals, notColon], solid c hc⟩

/-- The line of a safe entry ends in no backslash and in no return. -/
theorem getLast?_line_ne (safe : e.LineSafe) :
    e.line.getLast? ≠ some '\\' ∧ e.line.getLast? ≠ some '\r' := by
  rw [getLast?_line]
  cases last : e.value.getLast? with
  | none => decide
  | some c =>
    have notBlank : Text.isBlank c = false := by
      have trimmed := safe.trimmed.2
      rwa [last] at trimmed
    refine ⟨?_, ?_⟩
    · intro same
      exact (safe.value c (List.mem_of_getLast? last)).1 (Option.some.inj same)
    · intro same
      obtain rfl : c = '\r' := Option.some.inj same
      cases notBlank

theorem not_mem_line (safe : e.LineSafe) (valid : Key.isValid e.key = true) : '\n' ∉ e.line := by
  obtain ⟨-, -, -, -, -, solid⟩ := Key.isValid_iff.1 valid
  intro feed
  rcases List.mem_append.1 feed with feed | feed
  · cases solid _ feed
  · have inValue : '\n' ∈ e.value := by simpa using feed
    exact (safe.value _ inValue).2 rfl

theorem decode_line (safe : e.LineSafe) (valid : Key.isValid e.key = true) :
    decode e.line = .ok e := by
  have unescaped : '\\' ∉ e.value := fun mem => (safe.value _ mem).1 rfl
  refine (decode_of_plain (safe.plain valid)).2 ⟨rfl, ?_⟩
  rw [Text.trim_eq_self_iff.2 safe.trimmed, Escape.decode_of_not_mem unescaped]

end LineSafe

/-- Safe entries are written on lines of their own. -/
theorem all_lines (safe : ∀ e ∈ entries, e.LineSafe ∧ Key.isValid e.key = true) :
    Lines.all '\n' '\r' (entries.flatMap Tree.entryLine) = entries.map line := by
  have written : entries.flatMap Tree.entryLine =
      (entries.map line).flatMap (· ++ ['\n']) ++ [] := by
    rw [List.append_nil, List.flatMap_map]
    exact congrArg entries.flatMap (funext entryLine_eq)
  have whole : ∀ l ∈ entries.map line, '\n' ∉ l := by
    intro l hl
    obtain ⟨e, he, rfl⟩ := List.mem_map.1 hl
    exact (safe e he).1.not_mem_line (safe e he).2
  rw [written, Lines.all_flatMap_append whole, Lines.all_nil, List.append_nil, List.map_map]
  apply List.map_congr_left
  intro e he
  exact Lines.strip_of_getLast? (safe e he).1.getLast?_line_ne.2

/-- The lines of safe entries are logical lines, and each is read back as its entry. -/
theorem map_ofLine_join (safe : ∀ e ∈ entries, e.LineSafe ∧ Key.isValid e.key = true)
    (number : Nat) :
    (LogicalLine.join true number none (entries.map line)).map ofLine = entries.map .ok := by
  induction entries generalizing number with
  | nil => rfl
  | cons e entries ih =>
    obtain ⟨⟨first, valid⟩, rest⟩ := List.forall_mem_cons.1 safe
    have active : LogicalLine.isIdle e.line = false :=
      (isIdle_key_append valid _).2 first.opening
    have trimmed : Text.trimStart e.line = e.line := trimStart_key_append valid _
    have complete := LogicalLine.continues_of_getLast? first.getLast?_line_ne.1
    rw [List.map_cons, LogicalLine.join_plain trimmed active complete, List.map_cons,
      List.map_cons, ih rest, ofLine, first.decode_line valid]
    rfl

end Entry

namespace Store

/-- A line of a header as a comment, without its end. -/
def comment (line : Text) : Text := if line.head? = some '#' then line else "# ".toList ++ line

theorem head?_comment (line : Text) : (comment line).head? = some '#' := by
  rw [comment]
  split
  · assumption
  · rfl

theorem not_mem_comment {line : Text} (h : '\n' ∉ line) : '\n' ∉ comment line := by
  rw [comment]
  split
  · exact h
  · simp [h]

/-- Taking a return away from the end of a comment leaves a comment. -/
theorem isIdle_comment (line : Text) :
    LogicalLine.isIdle (Text.trimStart (Lines.strip '\r' (comment line))) = true := by
  obtain ⟨c, rest, first⟩ : ∃ c rest, comment line = c :: rest := by
    apply List.exists_cons_of_ne_nil
    intro empty
    have opening := head?_comment line
    rw [empty] at opening
    cases opening
  obtain rfl : c = '#' := by simpa [first] using head?_comment line
  have kept : ∃ rest', Lines.strip '\r' ('#' :: rest) = '#' :: rest' := by
    rw [Lines.strip]
    split
    · rename_i carriage
      have nonempty : rest ≠ [] := by
        rintro rfl
        cases carriage
      exact ⟨rest.dropLast, List.dropLast_cons_of_ne_nil nonempty⟩
    · exact ⟨rest, rfl⟩
  obtain ⟨rest', kept⟩ := kept
  rw [first, kept, Text.trimStart_of_head rfl]
  rfl

/-- A header is idle lines in front of what follows. -/
theorem exists_idle_header (header : Option Text) (t : Text) :
    ∃ idle, (∀ line ∈ idle, LogicalLine.isIdle (Text.trimStart line) = true) ∧
      Lines.all '\n' '\r' ((header.map headerText).getD [] ++ t) =
        idle ++ Lines.all '\n' '\r' t := by
  cases header with
  | none => exact ⟨[], by simp, rfl⟩
  | some header =>
    let texts := (Lines.all '\n' '\r' header).filter (!·.isEmpty)
    have written : headerText header = (texts.map comment).flatMap (· ++ ['\n']) := by
      rw [List.flatMap_map]
      rfl
    have whole : ∀ l ∈ texts.map comment, '\n' ∉ l := by
      intro l hl
      obtain ⟨text, ht, rfl⟩ := List.mem_map.1 hl
      exact not_mem_comment (Lines.not_mem_of_mem_all (List.mem_filter.1 ht).1)
    refine ⟨(texts.map comment).map (Lines.strip '\r'), ?_, ?_⟩
    · intro l hl
      obtain ⟨text, ht, rfl⟩ := List.mem_map.1 hl
      obtain ⟨line, -, rfl⟩ := List.mem_map.1 ht
      exact isIdle_comment line
    · rw [Option.map_some, Option.getD_some, written, Lines.all_flatMap_append whole]

end Store

namespace Properties

/-- A header contributes no entry and changes none. -/
theorem outcome_parse_header (header : Option Text) (t : Text) :
    (parse (.ofText ((header.map Store.headerText).getD [] ++ t))).outcome =
      (parse (.ofText t)).outcome := by
  obtain ⟨idle, hidle, lines⟩ := Store.exists_idle_header header t
  rw [outcome_parse_ofText, outcome_parse_ofText, lines, LogicalLine.join_append_of_idle hidle,
    LogicalLine.map_text_join 1 rfl]

@[simp] theorem entries_map_ok (listed : List Entry) : entries (listed.map .ok) = listed := by
  rw [entries, List.filterMap_map]
  exact List.filterMap_some

@[simp] theorem complaints_map_ok (listed : List Entry) : complaints (listed.map .ok) = [] := by
  rw [complaints, List.filterMap_map, List.filterMap_eq_nil_iff]
  exact fun _ _ => rfl

/-- Safe entries are read back as they are, below whatever header. -/
theorem parse_of_lineSafe {listed : List Entry}
    (safe : ∀ e ∈ listed, e.LineSafe ∧ Key.isValid e.key = true) (header : Option Text) :
    parse (.ofText ((header.map Store.headerText).getD [] ++ listed.flatMap Tree.entryLine)) =
      ⟨.ok listed, []⟩ := by
  obtain ⟨idle, hidle, lines⟩ :=
    Store.exists_idle_header header (listed.flatMap Tree.entryLine)
  have results : lineResults
      (.ofText ((header.map Store.headerText).getD [] ++ listed.flatMap Tree.entryLine)) =
      listed.map .ok := by
    rw [lineResults_ofText, lines, LogicalLine.join_append_of_idle hidle, Entry.all_lines safe]
    exact Entry.map_ofLine_join safe _
  rw [parse, results, entries_map_ok, complaints_map_ok]
  rfl

end Properties

namespace Entry

/-- The lines of an entry: the first one starts with the key, and together they are shorter than the
value by the line ends in it. -/
theorem exists_lines (e : Entry) (valid : Key.isValid e.key = true) :
    ∃ (first : Text) (more : List Text),
      Lines.all '\n' '\r' (Tree.entryLine e) = ((e.key ++ [':', ' ']) ++ first) :: more ∧
        first.length + more.flatten.length + more.length ≤ e.value.length ∧
        (more = [] → '\n' ∉ e.value) := by
  obtain ⟨-, -, -, -, -, solid⟩ := Key.isValid_iff.1 valid
  obtain ⟨first, more, cut⟩ := List.exists_cons_of_ne_nil (List.splitOn_ne_nil '\n' e.value)
  have whole : '\n' ∉ e.key ++ [':', ' '] := by
    intro feed
    rcases List.mem_append.1 feed with feed | feed
    · cases solid _ feed
    · simp at feed
  have ends : (e.key ++ [':', ' ']).getLast? ≠ some '\r' := by
    simp [List.getLast?_cons]
  have written : Tree.entryLine e = ((e.key ++ [':', ' ']) ++ e.value) ++ '\n' :: [] := by
    simp [Tree.entryLine]
  have joined : ['\n'].intercalate (first :: more) = e.value := by
    rw [← cut, List.intercalate_splitOn]
  refine ⟨Lines.strip '\r' first, more.map (Lines.strip '\r'), ?_, ?_, ?_⟩
  · rw [written, Lines.all_append_feed, Lines.all_nil, List.append_nil,
      splitOn_append_of_not_mem whole, cut, List.modifyHead_cons, List.map_cons,
      Lines.strip_append ends]
  · have length := length_intercalate_singleton '\n' first more
    have shorter := (Lines.strip_isPrefix '\r' first).length_le
    have shorter' := Lines.length_flatten_map_strip_le '\r' more
    rw [joined] at length
    rw [List.length_map]
    omega
  · intro single
    obtain rfl := List.map_eq_nil_iff.1 single
    rw [List.intercalate_singleton] at joined
    exact joined ▸ not_mem_of_mem_splitOn (cut ▸ List.mem_singleton_self first)

/-- If an entry is read back from the logical line that starts with its key, and there is no more on
this line than the value, then the entry is safe. -/
theorem lineSafe_of_decode (opening : e.key.head? ≠ some '#' ∧ e.key.head? ≠ some '!')
    {ending : Text} (short : ending.length ≤ e.value.length)
    (feedless : ending = e.value → '\n' ∉ e.value)
    (read : decode (e.key ++ ':' :: ' ' :: ending) = .ok e) : e.LineSafe := by
  have plain := plain_of_decode read
  have decoded := ((decode_of_plain plain).1 read).2
  have bound := Text.length_trim_le ending
  have kept : '\\' ∉ ending.trim ∧ e.value = ending.trim := by
    rcases Escape.decode_cases decoded with kept | shorter
    · exact kept
    · omega
  have trimmed : ending.trim = ending := by
    apply Text.trim_eq_of_length_le
    rw [← kept.2]
    exact short
  rw [trimmed] at kept
  refine ⟨?_, opening, ?_, ?_⟩
  · intro c hc
    obtain ⟨notEscape, notSeparator, -⟩ := plain c hc
    simp only [isSeparator, Bool.or_eq_false_iff, beq_eq_false_iff_ne] at notSeparator
    exact ⟨notSeparator.1, notSeparator.2, notEscape⟩
  · intro c hc
    refine ⟨?_, ?_⟩
    · rintro rfl
      exact kept.1 (kept.2 ▸ hc)
    · rintro rfl
      exact feedless kept.2.symm hc
  · rw [kept.2]
    exact Text.trim_eq_self_iff.1 trimmed

/-- Only a safe entry is read back from its lines. -/
theorem lineSafe_of_mem {e : Entry} (valid : Key.isValid e.key = true) {listed : List Entry}
    (read : (Properties.parse (.ofText (Tree.entryLine e))).outcome = .ok listed)
    (mem : e ∈ listed) : e.LineSafe := by
  obtain ⟨first, more, lines, short, feedless⟩ := exists_lines e valid
  obtain ⟨joined, hj, decoded⟩ := Properties.exists_of_mem_parse read mem
  rw [lines] at hj
  -- what is read from the lines after the first one is shorter than the value
  have elsewhere : ¬ joined.text.length < more.flatten.length + more.length := by
    have bound := length_value_le decoded
    omega
  have trimmed : Text.trimStart (e.key ++ [':', ' '] ++ first) = e.key ++ [':', ' '] ++ first := by
    rw [List.append_assoc]
    exact trimStart_key_append valid _
  cases idle : LogicalLine.isIdle (e.key ++ [':', ' '] ++ first) with
  | true =>
    rw [LogicalLine.join_idle (trimmed.symm ▸ idle)] at hj
    have bound := LogicalLine.length_lt_of_mem_join hj
    simp only [LogicalLine.room, Option.elim_none] at bound
    omega
  | false =>
    have closed : LogicalLine.continues (e.key ++ [':', ' ']) = false := by
      apply LogicalLine.continues_of_getLast?
      simp [List.getLast?_cons]
    rw [LogicalLine.join_active (trimmed.symm ▸ idle), trimmed] at hj
    obtain ⟨ending, later, joins, length, rest⟩ := LogicalLine.exists_goOn_eq closed first
    rw [joins] at hj
    rcases List.mem_cons.1 hj with rfl | hj
    · rw [List.append_assoc] at idle
      have opening := (isIdle_key_append valid _).1 idle
      have bound : ending.length ≤ e.value.length := by omega
      have whole : decode (e.key ++ ':' :: ' ' :: ending) = .ok e := by simpa using decoded
      refine lineSafe_of_decode opening bound ?_ whole
      rintro rfl
      apply feedless
      apply List.eq_nil_of_length_eq_zero
      omega
    · exact absurd (rest joined hj) elsewhere

end Entry

end ResourceLookup
