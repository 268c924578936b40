import ResourceLookup.Properties.Source

/-!
# Lines of texts and of their bytes

A source that delivers the bytes of a text has the lines of the text, since no byte of another
character looks like a line end. Lines that are written one below the other are read one by one.
-/

namespace ResourceLookup

/-- No piece of a list that was cut has the item at which it was cut. -/
theorem not_mem_of_mem_splitOn {α : Type} [DecidableEq α] {separator : α} {items piece : List α}
    (h : piece ∈ items.splitOn separator) : separator ∉ piece := by
  induction items generalizing piece with
  | nil => simp_all
  | cons a items ih =>
    rw [List.splitOn_cons_eq_if_modifyHead] at h
    split at h
    · rcases List.mem_cons.1 h with rfl | h
      · exact List.not_mem_nil
      · exact ih h
    · rename_i other
      obtain ⟨first, rest, cut⟩ := List.exists_cons_of_ne_nil (List.splitOn_ne_nil separator items)
      rw [cut, List.modifyHead_cons] at h
      rcases List.mem_cons.1 h with rfl | h
      · intro mem
        rcases List.mem_cons.1 mem with rfl | mem
        · simp at other
        · exact ih (cut ▸ List.mem_cons_self) mem
      · exact ih (cut ▸ List.mem_cons_of_mem _ h)

/-- What has no separator goes to the first piece. -/
theorem splitOn_append_of_not_mem {α : Type} [DecidableEq α] {separator : α} {opening : List α}
    (h : separator ∉ opening) (items : List α) :
    (opening ++ items).splitOn separator =
      (items.splitOn separator).modifyHead (opening ++ ·) := by
  induction opening with
  | nil =>
    rw [List.nil_append]
    cases items.splitOn separator <;> rfl
  | cons a opening ih =>
    have other : ¬ (a == separator) = true := by
      rw [beq_iff_eq]
      rintro rfl
      exact h List.mem_cons_self
    rw [List.cons_append, List.splitOn_cons_eq_if_modifyHead, if_neg other,
      ih fun later => h (List.mem_cons_of_mem _ later), List.modifyHead_modifyHead]
    rfl

/-- Every cut takes one separator away. -/
theorem length_intercalate_singleton {α : Type} (separator : α) (first : List α)
    (more : List (List α)) :
    ([separator].intercalate (first :: more)).length =
      first.length + more.flatten.length + more.length := by
  induction more generalizing first with
  | nil => simp
  | cons second more ih =>
    rw [List.intercalate_cons_cons, List.length_append, List.length_append,
      List.length_singleton, ih, List.flatten_cons, List.length_append, List.length_cons]
    omega

namespace Text

/-- A byte below 128 stands for one character and is its code. -/
theorem utf8EncodeChar_of_mem {c : Char} {b : UInt8} (h : b ∈ String.utf8EncodeChar c)
    (ascii : b.toNat < 128) : c.toNat = b.toNat ∧ String.utf8EncodeChar c = [b] := by
  have high {n : Nat} (least : 128 ≤ n) (most : n < 256) : b ≠ UInt8.ofNat n := by
    rintro rfl
    rw [UInt8.toNat_ofNat_of_lt' most] at ascii
    omega
  simp only [String.utf8EncodeChar] at h ⊢
  split at h
  · rename_i small
    obtain rfl := List.mem_singleton.1 h
    have byte : c.val.toNat < 256 := by omega
    rw [UInt8.toNat_ofNat_of_lt' byte, if_pos small]
    exact ⟨rfl, rfl⟩
  · exfalso
    split at h
    · simp only [List.mem_cons, List.not_mem_nil, or_false] at h
      rcases h with h | h <;> exact high (by omega) (by omega) h
    · split at h
      · simp only [List.mem_cons, List.not_mem_nil, or_false] at h
        rcases h with h | h | h <;> exact high (by omega) (by omega) h
      · simp only [List.mem_cons, List.not_mem_nil, or_false] at h
        rcases h with h | h | h | h <;> exact high (by omega) (by omega) h

variable {separator : Char} {b : UInt8}

/-- The byte of a character below 128 is found where the character is. -/
theorem mem_utf8_iff (code : String.utf8EncodeChar separator = [b]) (ascii : b.toNat < 128)
    {t : Text} : b ∈ utf8 t ↔ separator ∈ t := by
  have same : separator.toNat = b.toNat :=
    (utf8EncodeChar_of_mem (code ▸ List.mem_singleton_self b) ascii).1
  rw [utf8, List.mem_flatMap]
  constructor
  · rintro ⟨c, hc, mem⟩
    have found : c.toNat = separator.toNat := (utf8EncodeChar_of_mem mem ascii).1.trans same.symm
    exact Char.toNat_inj.1 found ▸ hc
  · intro mem
    exact ⟨separator, mem, code ▸ List.mem_singleton_self b⟩

theorem utf8_intercalate (code : String.utf8EncodeChar separator = [b]) (texts : List Text) :
    utf8 ([separator].intercalate texts) = [b].intercalate (texts.map utf8) := by
  induction texts with
  | nil => rfl
  | cons t texts ih =>
    cases texts with
    | nil => simp
    | cons u texts =>
      rw [List.intercalate_cons_cons, utf8_append, utf8_append, ih, utf8_cons, code, utf8_nil,
        List.append_nil, List.map_cons, List.map_cons, List.map_cons, List.intercalate_cons_cons]

/-- A text and its bytes are cut at the same places. -/
theorem splitOn_utf8 (code : String.utf8EncodeChar separator = [b]) (ascii : b.toNat < 128)
    (t : Text) : (utf8 t).splitOn b = (t.splitOn separator).map utf8 := by
  have joined : utf8 t = [b].intercalate ((t.splitOn separator).map utf8) := by
    rw [← utf8_intercalate code, List.intercalate_splitOn]
  rw [joined]
  refine List.splitOn_intercalate _ ?_ (by simp)
  intro bytes mem
  obtain ⟨piece, hp, rfl⟩ := List.mem_map.1 mem
  exact fun found => not_mem_of_mem_splitOn hp ((mem_utf8_iff code ascii).1 found)

theorem utf8_eq_nil_iff {t : Text} : utf8 t = [] ↔ t = [] := by
  cases t with
  | nil => simp
  | cons c t => simp [String.utf8EncodeChar_ne_nil]

end Text

namespace Lines

section Items

variable {α : Type} [DecidableEq α] {feed carriage : α}

theorem strip_concat (carriage : α) (line : List α) (a : α) :
    strip carriage (line ++ [a]) = if a = carriage then line else line ++ [a] := by
  simp only [strip, List.getLast?_concat, List.dropLast_concat, Option.some_inj]

theorem strip_of_getLast? {line : List α} (h : line.getLast? ≠ some carriage) :
    strip carriage line = line := if_neg h

theorem strip_isPrefix (carriage : α) (line : List α) : strip carriage line <+: line := by
  rw [strip]
  split
  · exact List.dropLast_prefix line
  · exact List.prefix_rfl

theorem strip_append {opening : List α} (h : opening.getLast? ≠ some carriage) (line : List α) :
    strip carriage (opening ++ line) = opening ++ strip carriage line := by
  rcases List.eq_nil_or_concat line with rfl | ⟨line, a, rfl⟩
  · rw [List.append_nil, strip_of_getLast? h]
    exact (List.append_nil _).symm
  · rw [List.concat_eq_append, ← List.append_assoc, strip_concat, strip_concat]
    split
    · rfl
    · exact List.append_assoc ..

theorem length_flatten_map_strip_le (carriage : α) (lines : List (List α)) :
    (lines.map (strip carriage)).flatten.length ≤ lines.flatten.length := by
  induction lines with
  | nil => exact Nat.le_refl _
  | cons line lines ih =>
    have shorter := (strip_isPrefix carriage line).length_le
    rw [List.map_cons, List.flatten_cons, List.flatten_cons, List.length_append,
      List.length_append]
    omega

@[simp] theorem all_nil (feed carriage : α) : all feed carriage [] = [] := by
  simp [all, last, ended]

/-- A text without line ends is one line at most. -/
theorem all_of_not_mem {line : List α} (whole : feed ∉ line) :
    all feed carriage line = if line.isEmpty then [] else [line] := by
  have single : line.splitOn feed = [line] := List.splitOn_eq_singleton whole
  rw [all, last, ended, single]
  rfl

theorem all_append_feed (feed carriage : α) (before after : List α) :
    all feed carriage (before ++ feed :: after) =
      (before.splitOn feed).map (strip carriage) ++ all feed carriage after := by
  rw [all, all, last_append_feed, ended_append_feed]
  split
  · rfl
  · exact List.append_assoc ..

/-- Lines that were written one below the other are read as they are, except for their returns. -/
theorem all_flatMap_append {lines : List (List α)} (h : ∀ line ∈ lines, feed ∉ line)
    (after : List α) :
    all feed carriage (lines.flatMap (· ++ [feed]) ++ after) =
      lines.map (strip carriage) ++ all feed carriage after := by
  induction lines with
  | nil => rfl
  | cons line lines ih =>
    obtain ⟨whole, rest⟩ := List.forall_mem_cons.1 h
    have written : (line :: lines).flatMap (· ++ [feed]) ++ after =
        line ++ feed :: (lines.flatMap (· ++ [feed]) ++ after) := by simp
    rw [written, all_append_feed, List.splitOn_eq_singleton whole, ih rest]
    rfl

/-- No line has a line end in it. -/
theorem not_mem_of_mem_all {items line : List α} (h : line ∈ all feed carriage items) :
    feed ∉ line := by
  have ended_lines {line : List α} (h : line ∈ ended feed carriage items) : feed ∉ line := by
    obtain ⟨piece, mem, rfl⟩ := List.mem_map.1 h
    exact fun found => not_mem_of_mem_splitOn ((List.dropLast_sublist _).subset mem)
      ((strip_isPrefix carriage piece).subset found)
  rw [all] at h
  split at h
  · exact ended_lines h
  · rcases List.mem_append.1 h with h | h
    · exact ended_lines h
    · obtain rfl := List.mem_singleton.1 h
      rw [last, List.getLastD_eq_getLast?,
        List.getLast?_eq_some_getLast (List.splitOn_ne_nil feed items)]
      exact not_mem_of_mem_splitOn (List.getLast_mem _)

end Items

theorem strip_utf8 (line : Text) : strip 13 (Text.utf8 line) = Text.utf8 (strip '\r' line) := by
  rcases List.eq_nil_or_concat line with rfl | ⟨line, c, rfl⟩
  · rfl
  · rw [List.concat_eq_append, strip_concat]
    split
    · rename_i carriage
      rw [Text.utf8_append, carriage]
      exact strip_concat 13 (Text.utf8 line) 13
    · rename_i other
      obtain ⟨bytes, b, code⟩ :=
        (List.eq_nil_or_concat (String.utf8EncodeChar c)).resolve_left String.utf8EncodeChar_ne_nil
      have whole : Text.utf8 (line ++ [c]) = Text.utf8 line ++ bytes ++ [b] := by
        simp [code]
      have notCarriage : b ≠ 13 := by
        rintro rfl
        have mem : 13 ∈ String.utf8EncodeChar c := by simp [code]
        exact other (Char.toNat_inj.1 (Text.utf8EncodeChar_of_mem mem (by decide)).1)
      rw [whole, strip_concat, if_neg notCarriage]

/-- The bytes of a text have the lines of the text. -/
theorem all_utf8 (t : Text) : all 10 13 (Text.utf8 t) = (all '\n' '\r' t).map Text.utf8 := by
  have code : String.utf8EncodeChar '\n' = [10] := rfl
  have cut := Text.splitOn_utf8 code (by decide) t
  have ended_utf8 : ended 10 13 (Text.utf8 t) = (ended '\n' '\r' t).map Text.utf8 := by
    rw [ended, ended, cut, ← List.map_dropLast, List.map_map, List.map_map]
    exact List.map_congr_left fun line _ => strip_utf8 line
  have last_utf8 : last 10 (Text.utf8 t) = Text.utf8 (last '\n' t) := by
    rw [last, last, cut, List.getLastD_eq_getLast?, List.getLastD_eq_getLast?, List.getLast?_map]
    cases (t.splitOn '\n').getLast? <;> rfl
  have bare : (Text.utf8 (last '\n' t)).isEmpty = (last '\n' t).isEmpty := by
    rw [Bool.eq_iff_iff, List.isEmpty_iff, List.isEmpty_iff, Text.utf8_eq_nil_iff]
  rw [all, all, ended_utf8, last_utf8, bare]
  split
  · rfl
  · simp

end Lines

/-- A source that delivers a text has the lines of the text. -/
theorem Source.lines_ofText (t : Text) : (Source.ofText t).lines = Lines.all '\n' '\r' t := by
  have bytes : (ofText t).byteLines = Lines.all 10 13 (Text.utf8 t) := rfl
  rw [lines, bytes, Lines.all_utf8, List.map_map]
  exact (List.map_congr_left fun line _ => Text.ofBytes_utf8 line).trans (List.map_id _)

end ResourceLookup
