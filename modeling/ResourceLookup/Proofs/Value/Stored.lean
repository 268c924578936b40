import ResourceLookup.Proofs.Properties.Lines
import ResourceLookup.Proofs.Text.Trimming
import ResourceLookup.Value

/-!
# Values read back

The stored form of a list pads its texts with blanks, which are trimmed away when it is read. A text
that is empty is kept thereby: nothing is dropped as an empty piece, since every piece has a blank
of its own. What is lost is the difference between a list and a single text where there is no `|`,
any blanks that a text of a list had at its ends, and the place of a `|` inside a text.

`stored_round_trip` says exactly which values are read back as they were stored.
-/

namespace ResourceLookup.Value

/-- A value that its stored form tells: a text that is neither empty nor taken for a list, or a list
of two or more texts that are neither cut nor trimmed. -/
def Storable : Value → Prop
  | single text => text ≠ [] ∧ valueDelimiter ∉ text
  | list texts => 2 ≤ texts.length ∧ ∀ t ∈ texts, valueDelimiter ∉ t ∧
      t.head?.any Text.isBlank = false ∧ t.getLast?.any Text.isBlank = false

/-- The pieces into which the stored form of a list falls at its delimiters. -/
def padded (first : Text) : List Text → List Text
  | [] => [first]
  | second :: more => (first ++ [' ']) :: padded (' ' :: second) more

section Padding

variable {first : Text} {more : List Text}

/-- The blank behind a delimiter goes to the text that follows. -/
theorem joinTexts_cons_cons (first second : Text) (more : List Text) :
    joinTexts (first :: second :: more) =
      (first ++ [' ']) ++ valueDelimiter :: joinTexts ((' ' :: second) :: more) := by
  cases more <;> simp [joinTexts, List.intercalate_cons_cons]

theorem splitOn_joinTexts (plain : ∀ t ∈ first :: more, valueDelimiter ∉ t) :
    (joinTexts (first :: more)).splitOn valueDelimiter = padded first more := by
  induction more generalizing first with
  | nil =>
    obtain ⟨whole, -⟩ := List.forall_mem_cons.1 plain
    rw [joinTexts, List.intercalate_singleton, padded, ← List.append_nil first,
      splitOn_append_of_not_mem whole]
    simp
  | cons second more ih =>
    obtain ⟨before, behind⟩ := List.forall_mem_cons.1 plain
    obtain ⟨next, others⟩ := List.forall_mem_cons.1 behind
    have opening : valueDelimiter ∉ first ++ [' '] := by
      simpa [valueDelimiter] using before
    have later : ∀ t ∈ (' ' :: second) :: more, valueDelimiter ∉ t :=
      List.forall_mem_cons.2 ⟨by simpa [valueDelimiter] using next, others⟩
    rw [joinTexts_cons_cons, splitOn_append_of_not_mem opening,
      List.splitOn_cons_eq_if_modifyHead, if_pos (by simp), ih later, padded]
    simp

/-- Every piece of two or more has a blank. -/
theorem ne_nil_of_mem_padded (long : first ≠ [] ∨ more ≠ []) {piece : Text}
    (h : piece ∈ padded first more) : piece ≠ [] := by
  induction more generalizing first with
  | nil =>
    obtain rfl := List.mem_singleton.1 h
    exact long.resolve_right (by simp)
  | cons second more ih =>
    rw [padded] at h
    obtain rfl | later := List.mem_cons.1 h
    · simp
    · exact ih (.inl (by simp)) later

theorem map_trim_padded (first : Text) (more : List Text) :
    (padded first more).map Text.trim = (first :: more).map Text.trim := by
  have blank : ∀ c ∈ [' '], Text.isBlank c = true := List.forall_mem_singleton.2 rfl
  induction more generalizing first with
  | nil => rfl
  | cons second more ih =>
    have behind : Text.trim (first ++ [' ']) = first.trim := Text.trim_append_of_blank blank first
    have before : Text.trim (' ' :: second) = second.trim :=
      congrArg Text.trimEnd (Text.trimStart_append_of_blank blank second)
    rw [padded, List.map_cons, ih, List.map_cons, List.map_cons, List.map_cons, behind, before]

end Padding

/-- A list of two or more texts is read back with its texts trimmed. -/
theorem ofStored?_joinTexts {texts : List Text} (long : 2 ≤ texts.length)
    (plain : ∀ t ∈ texts, valueDelimiter ∉ t) :
    ofStored? (joinTexts texts) = some (list (texts.map Text.trim)) := by
  match texts, long with
  | first :: second :: more, _ =>
    have delimited : valueDelimiter ∈ joinTexts (first :: second :: more) := by
      rw [joinTexts_cons_cons]
      simp
    have kept : (padded first (second :: more)).filter (!·.isEmpty) =
        padded first (second :: more) := by
      rw [List.filter_eq_self]
      intro piece mem
      simpa using ne_nil_of_mem_padded (.inr (by simp)) mem
    rw [ofStored?_of_mem delimited, splitOn_joinTexts plain, kept, map_trim_padded]

/-- What a stored text is read as. -/
theorem ofStored?_eq_some_iff {stored : Text} {v : Value} :
    ofStored? stored = some v ↔
      (stored ≠ [] ∧ valueDelimiter ∉ stored ∧ v = single stored) ∨
      (valueDelimiter ∈ stored ∧
        v = list (((stored.splitOn valueDelimiter).filter (!·.isEmpty)).map Text.trim)) := by
  by_cases delimited : valueDelimiter ∈ stored
  · rw [ofStored?_of_mem delimited]
    simp [delimited, eq_comm]
  · by_cases empty : stored = []
    · simp [empty]
    · rw [ofStored?_of_not_mem empty delimited]
      simp [empty, delimited, eq_comm]

section Reading

variable {stored : Text} {v : Value}

theorem not_mem_of_ofStored? (read : ofStored? stored = some v) :
    ∀ t ∈ v.toList, valueDelimiter ∉ t := by
  obtain ⟨-, plain, rfl⟩ | ⟨-, rfl⟩ := ofStored?_eq_some_iff.1 read
  · exact List.forall_mem_singleton.2 plain
  · intro t mem delimited
    obtain ⟨piece, cut, rfl⟩ := List.mem_map.1 mem
    exact not_mem_of_mem_splitOn (List.mem_filter.1 cut).1 (Text.mem_of_mem_trim delimited)

theorem trimmed_of_ofStored? {texts : List Text} (read : ofStored? stored = some (list texts)) :
    ∀ t ∈ texts, t.head?.any Text.isBlank = false ∧ t.getLast?.any Text.isBlank = false := by
  obtain ⟨-, -, other⟩ | ⟨-, same⟩ := ofStored?_eq_some_iff.1 read
  · cases other
  · cases same
    intro t mem
    obtain ⟨piece, -, rfl⟩ := List.mem_map.1 mem
    exact Text.trim_eq_self_iff.1 piece.trim_trim

end Reading

/-- A list of fewer than two texts has no delimiter in its stored form that does not come from the
texts. -/
theorem two_le_length_of_ofStored? {texts : List Text}
    (read : ofStored? (joinTexts texts) = some (list texts)) : 2 ≤ texts.length := by
  match texts with
  | [] => cases read
  | [t] =>
    have plain := not_mem_of_ofStored? read t (List.mem_singleton_self t)
    have stored : joinTexts [t] = t := List.intercalate_singleton
    obtain ⟨-, -, other⟩ | ⟨delimited, -⟩ := ofStored?_eq_some_iff.1 read
    · cases other
    · exact absurd (stored ▸ delimited) plain
  | _ :: _ :: _ => simp

theorem ofStored?_toStored_iff_storable (v : Value) :
    ofStored? v.toStored = some v ↔ v.Storable := by
  cases v with
  | single text => simp [ofStored?_eq_some_iff, Storable]
  | list texts =>
    constructor
    · intro read
      refine ⟨two_le_length_of_ofStored? read, fun t mem => ?_⟩
      exact ⟨not_mem_of_ofStored? read t mem, trimmed_of_ofStored? read t mem⟩
    · rintro ⟨long, proper⟩
      have kept : texts.map Text.trim = texts := by
        calc texts.map Text.trim
          _ = texts.map id :=
            List.map_congr_left fun t mem => Text.trim_eq_self_iff.2 (proper t mem).2
          _ = texts := List.map_id texts
      rw [toStored_list, ofStored?_joinTexts long fun t mem => (proper t mem).1, kept]

/-- What was read once is lost only if too few texts were left of a list. -/
theorem storable_iff_of_ofStored? {stored : Text} {v : Value} (read : ofStored? stored = some v) :
    v.Storable ↔ ¬ ∃ texts, v = list texts ∧ texts.length < 2 := by
  have plain := not_mem_of_ofStored? read
  cases v with
  | single text =>
    obtain ⟨nonempty, delimited, same⟩ | ⟨-, other⟩ := ofStored?_eq_some_iff.1 read
    · cases same
      simp [Storable, nonempty, delimited]
    · cases other
  | list texts =>
    constructor
    · rintro ⟨long, -⟩ ⟨others, same, short⟩
      cases same
      omega
    · intro enough
      refine ⟨Nat.le_of_not_lt fun short => enough ⟨texts, rfl, short⟩, fun t mem => ?_⟩
      exact ⟨plain t mem, trimmed_of_ofStored? read t mem⟩

/-- Exactly the storable values are read back. A list of two or more texts loses at most the blanks
at their ends. Whatever is read from a stored text has no delimiter and, in a list, no blank at an
end, so that only a list of fewer than two texts is not read back again. -/
theorem stored_round_trip :
    (∀ v : Value, ofStored? v.toStored = some v ↔ v.Storable) ∧
      (∀ texts : List Text, 2 ≤ texts.length → (∀ t ∈ texts, valueDelimiter ∉ t) →
        ofStored? (joinTexts texts) = some (list (texts.map Text.trim))) ∧
      ∀ (stored : Text) (v : Value), ofStored? stored = some v →
        (∀ t ∈ v.toList, valueDelimiter ∉ t) ∧
          (∀ texts, v = list texts → ∀ t ∈ texts,
            t.head?.any Text.isBlank = false ∧ t.getLast?.any Text.isBlank = false) ∧
          (ofStored? v.toStored = some v ↔ ¬ ∃ texts, v = list texts ∧ texts.length < 2) := by
  refine ⟨ofStored?_toStored_iff_storable, fun texts => ofStored?_joinTexts, ?_⟩
  intro stored v read
  refine ⟨not_mem_of_ofStored? read, ?_, ?_⟩
  · rintro texts rfl
    exact trimmed_of_ofStored? read
  · rw [ofStored?_toStored_iff_storable, storable_iff_of_ofStored? read]

/-- A piece that is empty is dropped and one of blanks is kept as an empty text, which is not
dropped when the list is stored again. -/
theorem stored_round_trip_of_blank_piece :
    let stored := "|a||b c| |".toList
    let texts := ["a".toList, "b c".toList, []]
    ofStored? stored = some (list texts) ∧ ofStored? (list texts).toStored = some (list texts) ∧
      ofStored? (joinTexts [" a".toList, [], "b\t".toList]) =
        some (list ["a".toList, [], "b".toList]) := by
  intro stored texts
  obtain ⟨-, joined, reread⟩ := stored_round_trip
  have read : ofStored? stored = some (list texts) := by decide +kernel
  refine ⟨read, ?_, ?_⟩
  · obtain ⟨-, -, again⟩ := reread stored (list texts) read
    apply again.2
    rintro ⟨others, same, short⟩
    cases same
    exact absurd short (by decide)
  · have trimmed := joined [" a".toList, [], "b\t".toList] (by decide) (by decide)
    rw [trimmed]
    decide +kernel

end ResourceLookup.Value
