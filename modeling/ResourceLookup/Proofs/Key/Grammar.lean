import Mathlib.Data.List.Infix
import ResourceLookup.Proofs.Key.Steps

/-!
# The grammar of keys

A well-formed key is made of pieces, each of which is a segment with the run of delimiters in front
of it. The first run may be empty, and otherwise it starts with a loose delimiter; all other runs
have at least one delimiter. No run has two tight delimiters in a row and no segment two `?`.

`parses_exactly_grammar` says that keys are read from exactly these texts, and that the steps of a
key are the pieces that it is made of: a run with a loose delimiter in it binds its segment loosely.
-/

namespace ResourceLookup.Key

/-- A character is doubled where it stands twice in a row. -/
theorem hasDouble_eq_false_iff {c : Char} {t : Text} : hasDouble c t = false ↔ ¬ [c, c] <:+: t := by
  induction t with
  | nil => simp [hasDouble]
  | cons a t ih =>
    have first : [c, c] <+: a :: t ↔ a = c ∧ t.head? = some c := by
      cases t <;> simp [List.cons_prefix_cons, eq_comm]
    rw [hasDouble_cons, ih, List.infix_cons_iff, first, not_or]

/-- A segment of a raw key with the run of delimiters in front of it. -/
structure Piece where
  run : Text
  segment : Text
deriving DecidableEq, Repr

namespace Piece

/-- A piece as it is written. -/
def text (p : Piece) : Text := p.run ++ p.segment

/-- A piece as a step. It is bound loosely if there is a loose delimiter in its run. -/
def step (p : Piece) : Step := ⟨if '*' ∈ p.run then .loose else .tight, p.segment⟩

/-- What a piece may be written with. -/
structure Proper (p : Piece) : Prop where
  delimiters : ∀ c ∈ p.run, c = '.' ∨ c = '*'
  tight : ¬ ['.', '.'] <:+: p.run
  nonempty : p.segment ≠ []
  plain : ∀ c ∈ p.segment, c ≠ '.' ∧ c ≠ '*' ∧ Text.isBlank c = false
  single : ¬ ['?', '?'] <:+: p.segment

-- The tests go through the characters of the piece. A bounded quantifier could be decided by going
-- through all characters there are.
instance (p : Piece) : Decidable p.Proper :=
  decidable_of_iff (p.run.all (fun c => c = '.' ∨ c = '*') ∧ ¬ ['.', '.'] <:+: p.run ∧
      p.segment ≠ [] ∧ p.segment.all (fun c => c ≠ '.' ∧ c ≠ '*' ∧ Text.isBlank c = false) ∧
      ¬ ['?', '?'] <:+: p.segment) <| by
    simp only [List.all_eq_true, decide_eq_true_eq]
    exact ⟨fun ⟨delimiters, tight, nonempty, plain, single⟩ =>
        ⟨delimiters, tight, nonempty, plain, single⟩,
      fun h => ⟨h.delimiters, h.tight, h.nonempty, h.plain, h.single⟩⟩

end Piece

/-- A text is made of pieces. Only the first run may be empty, and it never starts with a tight
delimiter. -/
structure MadeOf (raw : Text) (first : Piece) (rest : List Piece) : Prop where
  text_eq : raw = (first :: rest).flatMap Piece.text
  proper : ∀ p ∈ first :: rest, p.Proper
  opens : first.run = [] ∨ first.run.head? = some '*'
  separated : ∀ p ∈ rest, p.run ≠ []

instance (raw : Text) (first : Piece) (rest : List Piece) : Decidable (MadeOf raw first rest) :=
  decidable_of_iff (raw = (first :: rest).flatMap Piece.text ∧ (∀ p ∈ first :: rest, p.Proper) ∧
      (first.run = [] ∨ first.run.head? = some '*') ∧ ∀ p ∈ rest, p.run ≠ [])
    ⟨fun ⟨text, proper, opens, separated⟩ => ⟨text, proper, opens, separated⟩,
      fun h => ⟨h.text_eq, h.proper, h.opens, h.separated⟩⟩

/-- What holds of a well-formed key and of every end of it. -/
structure Spaced (t : Text) : Prop where
  tight : hasDouble '.' t = false
  single : hasDouble '?' t = false
  blank : ∀ c ∈ t, Text.isBlank c = false
  last : t.getLast?.any isDelimiter = false

theorem isValid_iff_spaced {raw : Text} :
    isValid raw = true ↔ raw ≠ [] ∧ raw.head? ≠ some '.' ∧ Spaced raw := by
  rw [isValid_iff]
  constructor
  · rintro ⟨nonempty, first, last, tight, single, blank⟩
    exact ⟨nonempty, first, tight, single, blank, last⟩
  · rintro ⟨nonempty, first, tight, single, blank, last⟩
    exact ⟨nonempty, first, last, tight, single, blank⟩

namespace Piece.Proper

variable {run segment : Text} {c : Char}

theorem isDelimiter_of_mem {p : Piece} (h : p.Proper) (hc : c ∈ p.run) : isDelimiter c = true := by
  obtain rfl | rfl := h.delimiters c hc <;> rfl

theorem isSegment {p : Piece} (h : p.Proper) : IsSegment p.segment where
  nonempty := h.nonempty
  plain c hc := ⟨isDelimiter_eq_false_iff.2 ⟨(h.plain c hc).1, (h.plain c hc).2.1⟩,
    (h.plain c hc).2.2⟩
  single := hasDouble_eq_false_iff.2 h.single

theorem of_isSegment (h : IsSegment segment) : Proper ⟨[], segment⟩ where
  delimiters := by simp
  tight := by simp
  nonempty := h.nonempty
  plain c hc := by
    obtain ⟨delimiter, blank⟩ := h.plain c hc
    obtain ⟨notTight, notLoose⟩ := isDelimiter_eq_false_iff.1 delimiter
    exact ⟨notTight, notLoose, blank⟩
  single := hasDouble_eq_false_iff.1 h.single

/-- A run goes on to the left with another delimiter. -/
theorem cons_run (h : Proper ⟨run, segment⟩) (delimiter : isDelimiter c = true)
    (tight : hasDouble '.' (c :: run) = false) : Proper ⟨c :: run, segment⟩ :=
  { h with
    delimiters := List.forall_mem_cons.2 ⟨by simpa [isDelimiter] using delimiter, h.delimiters⟩
    tight := hasDouble_eq_false_iff.1 tight }

end Piece.Proper

namespace Spaced

variable {c : Char} {t rest : Text}

theorem nil : Spaced [] := ⟨rfl, rfl, by simp, rfl⟩

theorem tail (h : Spaced (c :: t)) : Spaced t where
  tight := (hasDouble_cons.1 h.tight).2
  single := (hasDouble_cons.1 h.single).2
  blank d hd := h.blank d (List.mem_cons_of_mem _ hd)
  last := by
    cases t with
    | nil => rfl
    | cons d t => simpa [List.getLast?_cons_cons] using h.last

/-- A spaced text falls into pieces. Each character in front lengthens the first run or the first
segment, or it starts a segment of its own before a run. -/
theorem exists_pieces (h : Spaced t) (nonempty : t ≠ []) :
    ∃ first rest, t = (first :: rest).flatMap Piece.text ∧ (∀ p ∈ first :: rest, p.Proper) ∧
      ∀ p ∈ rest, p.run ≠ [] := by
  induction t with
  | nil => exact absurd rfl nonempty
  | cons c t ih =>
    have blank : Text.isBlank c = false := h.blank c List.mem_cons_self
    have alone (delimiter : isDelimiter c = false) : Piece.Proper ⟨[], [c]⟩ :=
      .of_isSegment ⟨by simp, by simp [delimiter, blank], rfl⟩
    cases t with
    | nil =>
      have delimiter : isDelimiter c = false := by simpa using h.last
      exact ⟨⟨[], [c]⟩, [], rfl, List.forall_mem_singleton.2 (alone delimiter), by simp⟩
    | cons d t =>
      obtain ⟨⟨run, segment⟩, rest, text, proper, separated⟩ := ih h.tail (by simp)
      have whole : c :: d :: t = (c :: run) ++ (segment ++ rest.flatMap Piece.text) := by
        rw [text]
        simp [Piece.text]
      obtain ⟨first, others⟩ := List.forall_mem_cons.1 proper
      cases delimiter : isDelimiter c with
      | true =>
        have tight : hasDouble '.' (c :: run) = false := hasDouble_append_left (whole ▸ h.tight)
        refine ⟨⟨c :: run, segment⟩, rest, by simpa [Piece.text] using whole, ?_, separated⟩
        exact List.forall_mem_cons.2 ⟨first.cons_run delimiter tight, others⟩
      | false =>
        cases run with
        | nil =>
          have single := h.single
          rw [whole, List.singleton_append, ← List.cons_append] at single
          have single := hasDouble_append_left single
          have plain := List.forall_mem_cons.2 ⟨⟨delimiter, blank⟩, first.isSegment.plain⟩
          refine ⟨⟨[], c :: segment⟩, rest, by simpa [Piece.text] using whole, ?_, separated⟩
          exact List.forall_mem_cons.2 ⟨.of_isSegment ⟨by simp, plain, single⟩, others⟩
        | cons e run =>
          refine ⟨⟨[], [c]⟩, ⟨e :: run, segment⟩ :: rest, by simpa [Piece.text] using whole, ?_, ?_⟩
          · exact List.forall_mem_cons.2 ⟨alone delimiter, proper⟩
          · exact List.forall_mem_cons.2 ⟨by simp, separated⟩

/-- A segment stands in front of a run or at the end. -/
theorem segment_append {segment : Text} (h : Spaced rest) (proper : IsSegment segment)
    (ends : rest.head?.all isDelimiter = true) : Spaced (segment ++ rest) where
  tight := by
    apply hasDouble_append.2
    refine ⟨?_, h.tight, ?_⟩
    · apply hasDouble_eq_false_iff.2
      intro double
      simpa [isDelimiter] using (proper.plain '.' (double.subset (by simp))).1
    · rintro ⟨last, -⟩
      simpa [isDelimiter] using (proper.plain '.' (List.mem_of_getLast? last)).1
  single := by
    apply hasDouble_append.2
    refine ⟨proper.single, h.single, ?_⟩
    rintro ⟨-, next⟩
    simp [next, isDelimiter] at ends
  blank := List.forall_mem_append.2 ⟨fun c hc => (proper.plain c hc).2, h.blank⟩
  last := by
    rw [List.getLast?_append]
    cases ending : rest.getLast? with
    | some c => simpa [ending] using h.last
    | none =>
      cases last : segment.getLast? with
      | none => rfl
      | some c => simpa using (proper.plain c (List.mem_of_getLast? last)).1

/-- A run of delimiters stands in front of a segment. -/
theorem run_append {p : Piece} (h : Spaced rest) (proper : p.Proper) (nonempty : rest ≠ [])
    (starts : rest.head?.any isDelimiter = false) : Spaced (p.run ++ rest) where
  tight := by
    apply hasDouble_append.2
    refine ⟨hasDouble_eq_false_iff.2 proper.tight, h.tight, ?_⟩
    rintro ⟨-, next⟩
    simp [next, isDelimiter] at starts
  single := by
    apply hasDouble_append.2
    refine ⟨?_, h.single, ?_⟩
    · apply hasDouble_eq_false_iff.2
      intro double
      simpa using proper.delimiters '?' (double.subset (by simp))
    · rintro ⟨last, -⟩
      simpa using proper.delimiters '?' (List.mem_of_getLast? last)
  blank := by
    refine List.forall_mem_append.2 ⟨fun c hc => ?_, h.blank⟩
    obtain rfl | rfl := proper.delimiters c hc <;> decide
  last := by
    rw [List.getLast?_append, List.getLast?_eq_some_getLast nonempty, Option.some_or,
      ← List.getLast?_eq_some_getLast]
    exact h.last

end Spaced

namespace Piece

variable {p : Piece} {pieces : List Piece}

theorem head?_segment_append (h : p.Proper) (rest : Text) :
    (p.segment ++ rest).head?.any isDelimiter = false := by
  obtain ⟨c, segment, text⟩ := List.exists_cons_of_ne_nil h.nonempty
  have plain := (h.isSegment.plain c (by simp [text])).1
  simpa [text] using plain

/-- Pieces with runs start with a delimiter. -/
theorem head?_flatMap_text (proper : ∀ p ∈ pieces, p.Proper)
    (separated : ∀ p ∈ pieces, p.run ≠ []) :
    (pieces.flatMap text).head?.all isDelimiter = true := by
  cases pieces with
  | nil => rfl
  | cons p pieces =>
    obtain ⟨c, run, begins⟩ := List.exists_cons_of_ne_nil (separated p List.mem_cons_self)
    have delimiter := (proper p List.mem_cons_self).isDelimiter_of_mem (c := c) (by simp [begins])
    simpa [text, begins] using delimiter

theorem spaced_append (h : p.Proper) {rest : Text} (spaced : Spaced rest)
    (ends : rest.head?.all isDelimiter = true) : Spaced (p.text ++ rest) := by
  rw [text, List.append_assoc]
  apply (spaced.segment_append h.isSegment ends).run_append h
  · exact List.append_ne_nil_of_left_ne_nil h.nonempty rest
  · exact head?_segment_append h rest

theorem spaced_flatMap_text (proper : ∀ p ∈ pieces, p.Proper)
    (separated : ∀ p ∈ pieces, p.run ≠ []) : Spaced (pieces.flatMap text) := by
  induction pieces with
  | nil => exact .nil
  | cons p pieces ih =>
    obtain ⟨first, others⟩ := List.forall_mem_cons.1 proper
    obtain ⟨-, later⟩ := List.forall_mem_cons.1 separated
    exact spaced_append first (ih others later) (head?_flatMap_text others later)

/-- A run without a loose delimiter has at most one delimiter. -/
theorem run_eq_of_not_mem (h : p.Proper) (tight : '*' ∉ p.run) : p.run = [] ∨ p.run = ['.'] := by
  have dot (c : Char) (hc : c ∈ p.run) : c = '.' := by
    obtain same | loose := h.delimiters c hc
    · exact same
    · exact absurd (loose ▸ hc) tight
  match begins : p.run with
  | [] => exact .inl rfl
  | [c] => exact .inr (by rw [dot c (by simp [begins])])
  | c :: d :: run =>
    have double : ['.', '.'] <:+: p.run := by
      rw [begins, dot c (by simp [begins]), dot d (by simp [begins])]
      exact (List.prefix_append ['.', '.'] run).isInfix
    exact absurd double h.tight

section Normalize

variable {run rest : Text}

theorem dropWhile_of_head? (starts : rest.head?.any isDelimiter = false) :
    rest.dropWhile isDelimiter = rest := by
  cases rest with
  | nil => rfl
  | cons c rest =>
    have delimiter : isDelimiter c = false := by simpa using starts
    simp [delimiter]

theorem dropWhile_foldr_attach (delimiters : ∀ c ∈ run, c = '.' ∨ c = '*')
    (starts : rest.head?.any isDelimiter = false) :
    (run.foldr attach rest).dropWhile isDelimiter = rest := by
  induction run with
  | nil => exact dropWhile_of_head? starts
  | cons c run ih =>
    obtain ⟨first, others⟩ := List.forall_mem_cons.1 delimiters
    rw [List.foldr_cons]
    obtain rfl | rfl := first
    · rw [attach_tight]
      split
      · exact ih others
      · simpa [isDelimiter] using ih others
    · rw [attach_loose, ih others]
      simpa [isDelimiter] using dropWhile_of_head? starts

/-- A loose delimiter takes up the whole run that it stands in. -/
theorem foldr_attach_of_mem (delimiters : ∀ c ∈ run, c = '.' ∨ c = '*') (loose : '*' ∈ run)
    (starts : rest.head?.any isDelimiter = false) : run.foldr attach rest = '*' :: rest := by
  induction run with
  | nil => simp at loose
  | cons c run ih =>
    obtain ⟨first, others⟩ := List.forall_mem_cons.1 delimiters
    rw [List.foldr_cons]
    obtain rfl | rfl := first
    · rw [ih others (by simpa using loose)]
      simp [attach_tight]
    · rw [attach_loose, dropWhile_foldr_attach others starts]

theorem foldr_attach_segment {segment : Text} (h : IsSegment segment) :
    segment.foldr attach rest = segment ++ rest := by
  obtain ⟨-, plain, -⟩ := h
  induction segment with
  | nil => rfl
  | cons c segment ih =>
    obtain ⟨first, others⟩ := List.forall_mem_cons.1 plain
    rw [List.foldr_cons, ih others, attach_of_isDelimiter_eq_false first.1]
    rfl

/-- A piece in normal form is its step, with a delimiter unless the piece has none. -/
theorem foldr_attach_text (h : p.Proper) :
    p.text.foldr attach rest =
      if p.run = [] then p.segment ++ rest else p.step.text ++ rest := by
  have starts := head?_segment_append h rest
  rw [text, List.foldr_append, foldr_attach_segment h.isSegment]
  by_cases loose : '*' ∈ p.run
  · rw [foldr_attach_of_mem h.delimiters loose starts, if_neg (List.ne_nil_of_mem loose)]
    simp [step, Step.text, loose, Binding.delimiter]
  · obtain empty | single := run_eq_of_not_mem h loose
    · simp [empty]
    · have notLoose : (p.segment ++ rest).head? ≠ some '*' := by
        intro first
        simp [first, isDelimiter] at starts
      rw [single, List.foldr_cons, List.foldr_nil, attach_tight, if_neg notLoose, if_neg (by simp)]
      simp [step, single, Step.text, Binding.delimiter]

theorem normalize_flatMap_text (proper : ∀ p ∈ pieces, p.Proper)
    (separated : ∀ p ∈ pieces, p.run ≠ []) :
    normalize (pieces.flatMap text) = (pieces.map step).flatMap Step.text := by
  induction pieces with
  | nil => rfl
  | cons p pieces ih =>
    obtain ⟨first, others⟩ := List.forall_mem_cons.1 proper
    obtain ⟨begins, later⟩ := List.forall_mem_cons.1 separated
    rw [List.flatMap_cons, normalize_append, ih others later, foldr_attach_text first,
      if_neg begins]
    rfl

end Normalize

end Piece

namespace MadeOf

variable {raw : Text} {first : Piece} {rest : List Piece}

theorem isValid (h : MadeOf raw first rest) : Key.isValid raw = true := by
  obtain ⟨proper, others⟩ := List.forall_mem_cons.1 h.proper
  have spaced := Piece.spaced_append proper (Piece.spaced_flatMap_text others h.separated)
    (Piece.head?_flatMap_text others h.separated)
  have text : raw = first.text ++ rest.flatMap Piece.text := h.text_eq
  apply isValid_iff_spaced.2
  rw [text]
  refine ⟨?_, ?_, spaced⟩
  · simp [Piece.text, proper.nonempty]
  · obtain empty | loose := h.opens
    · have starts := Piece.head?_segment_append proper (rest.flatMap Piece.text)
      intro tight
      rw [Piece.text, empty, List.nil_append] at tight
      simp [tight, isDelimiter] at starts
    · simp [Piece.text, loose]

/-- The normal form of a text is written with the steps of its pieces. -/
theorem normalize_eq (h : MadeOf raw first rest) :
    normalize raw = Step.pathText ((first :: rest).map Piece.step) := by
  obtain ⟨proper, others⟩ := List.forall_mem_cons.1 h.proper
  have text : raw = first.text ++ rest.flatMap Piece.text := h.text_eq
  rw [text, normalize_append, Piece.normalize_flatMap_text others h.separated,
    Piece.foldr_attach_text proper, List.map_cons, Step.pathText_cons]
  obtain empty | loose := h.opens
  · simp [empty, Piece.step]
  · have loose : '*' ∈ first.run := List.mem_of_head? loose
    rw [if_neg (List.ne_nil_of_mem loose)]
    simp [Piece.step, loose]

theorem exists_parse (h : MadeOf raw first rest) :
    ∃ key, parse raw = .ok key ∧ key.steps = (first :: rest).map Piece.step := by
  have proper : ∀ s ∈ (first :: rest).map Piece.step, IsSegment s.segment := by
    intro s hs
    obtain ⟨p, hp, rfl⟩ := List.mem_map.1 hs
    exact (h.proper p hp).isSegment
  refine ⟨ofSteps _ (by simp) proper, ?_, steps_ofSteps _ _ _⟩
  exact parse_eq_ok_iff.2 ⟨h.isValid, h.normalize_eq.symm⟩

end MadeOf

theorem isValid_iff_exists_madeOf {raw : Text} :
    isValid raw = true ↔ ∃ first rest, MadeOf raw first rest := by
  constructor
  · intro valid
    obtain ⟨nonempty, head, spaced⟩ := isValid_iff_spaced.1 valid
    obtain ⟨first, rest, text, proper, separated⟩ := spaced.exists_pieces nonempty
    refine ⟨first, rest, text, proper, ?_, separated⟩
    cases begins : first.run with
    | nil => exact .inl rfl
    | cons c run =>
      have whole : raw = c :: (run ++ first.segment ++ rest.flatMap Piece.text) := by
        simp [text, Piece.text, begins]
      have notTight : c ≠ '.' := by simpa [whole] using head
      have loose := ((proper first List.mem_cons_self).delimiters c (by simp [begins])).resolve_left
        notTight
      exact .inr (by rw [List.head?_cons, loose])
  · rintro ⟨first, rest, made⟩
    exact made.isValid

/-- A key is read from a text exactly if the text is made of pieces. Its steps are then the pieces,
whatever the pieces are taken to be. The tokenizer finds nothing else in the text of the key, this
text is the steps in writing, and it reads as the same key. Keys are told apart by their steps. A
text that is not made of pieces is given back. -/
theorem parses_exactly_grammar (raw : Text) :
    (isValid raw = true ↔ ∃ first rest, MadeOf raw first rest) ∧
      (∀ first rest, MadeOf raw first rest → ∃ key, parse raw = .ok key ∧
        key.steps = (first :: rest).map Piece.step ∧
        (Token.scan key.text).all Token.isProper = true ∧
        Step.pathText key.steps = key.text ∧ parse key.text = .ok key) ∧
      (∀ other key key', parse raw = .ok key → parse other = .ok key' →
        (key = key' ↔ key.steps = key'.steps)) ∧
      (isValid raw = false → parse raw = .error (.malformedKey raw)) := by
  refine ⟨isValid_iff_exists_madeOf, ?_, ?_, parse_of_not_isValid⟩
  · intro first rest made
    obtain ⟨key, read, steps⟩ := made.exists_parse
    have blank := (isValid_iff.1 key.isValid_text).2.2.2.2.2
    have tokens : (Token.scan key.text).all Token.isProper = true := by
      rw [Token.all_isProper_scan, List.all_eq_true]
      simpa using blank
    exact ⟨key, read, steps, tokens, key.pathText_steps, key.parse_text⟩
  · intro other key key' _ _
    exact ⟨congrArg steps, steps_injective⟩

/-- Runs of both delimiters, a `?` beside another character, and a character beyond ASCII. -/
theorem parses_exactly_mixed_runs :
    let raw := "*.app.?x**é*.Panel".toList
    let first : Piece := ⟨"*.".toList, "app".toList⟩
    let rest : List Piece :=
      [⟨".".toList, "?x".toList⟩, ⟨"**".toList, "é".toList⟩, ⟨"*.".toList, "Panel".toList⟩]
    MadeOf raw first rest ∧ ∃ key, parse raw = .ok key ∧
      key.steps = [⟨.loose, "app".toList⟩, ⟨.tight, "?x".toList⟩, ⟨.loose, "é".toList⟩,
        ⟨.loose, "Panel".toList⟩] := by
  intro raw first rest
  have made : MadeOf raw first rest := by decide +kernel
  obtain ⟨-, parsed, -⟩ := parses_exactly_grammar raw
  obtain ⟨key, read, steps, -⟩ := parsed first rest made
  exact ⟨made, key, read, steps.trans (by decide +kernel)⟩

end ResourceLookup.Key
