import ResourceLookup.Key.Basic

/-!
# Keys and their steps

A key is a list of steps in writing. The steps are read off the text by the tokenizer; they are
written again as a path from the root. `ofText_pathText` and `pathText_steps` say that the two ways
are inverse to each other between keys and the nonempty lists of steps with proper segments, so that
a key may be given by either. `steps_join` says what joining does to the steps.
-/

namespace ResourceLookup

/-- A text that can stand as one segment in a key. -/
structure IsSegment (t : Text) : Prop where
  nonempty : t ≠ []
  plain : ∀ c ∈ t, isDelimiter c = false ∧ Text.isBlank c = false
  single : Key.hasDouble '?' t = false

/-- Every delimiter writes a binding. -/
theorem exists_eq_delimiter {c : Char} (h : isDelimiter c = true) :
    ∃ b : Binding, c = b.delimiter := by
  cases read : Binding.ofDelimiter? c with
  | none => simp [ofDelimiter?_eq_none_iff.1 read] at h
  | some b => exact ⟨b, Binding.ofDelimiter?_eq_some_iff.1 read⟩

namespace Token

theorem scan_delimiter_cons (b : Binding) (t : Text) :
    scan (b.delimiter :: t) = delimiter b :: scan t := by
  rw [scan, Binding.ofDelimiter?_delimiter]

theorem scan_plain_cons {c : Char} (delimiter : isDelimiter c = false)
    (blank : Text.isBlank c = false) (t : Text) : scan (c :: t) = consChar c (scan t) := by
  rw [scan, ofDelimiter?_eq_none_iff.2 delimiter]
  simp [blank]

/-- A segment ends where a delimiter or the end of the text follows. -/
theorem scan_segment_append {seg rest : Text} (h : IsSegment seg)
    (ends : rest.head?.all isDelimiter = true) :
    scan (seg ++ rest) = segment seg :: scan rest := by
  obtain ⟨nonempty, plain, -⟩ := h
  induction seg with
  | nil => exact absurd rfl nonempty
  | cons c seg ih =>
    obtain ⟨delimiter, blank⟩ := plain c List.mem_cons_self
    rw [List.cons_append, scan_plain_cons delimiter blank]
    cases seg with
    | nil =>
      cases rest with
      | nil => rfl
      | cons d rest =>
        have isDelim : isDelimiter d = true := by simpa using ends
        obtain ⟨b, rfl⟩ := exists_eq_delimiter isDelim
        rw [List.nil_append, scan_delimiter_cons]
        rfl
    | cons d seg =>
      rw [ih (by simp) fun e he => plain e (List.mem_cons_of_mem _ he)]
      rfl

end Token

namespace Step

theorem head?_flatMap_text (steps : List Step) :
    (steps.flatMap text).head?.all isDelimiter = true := by
  cases steps with
  | nil => rfl
  | cons s steps => cases hb : s.binding <;> simp [text, hb, Binding.delimiter, isDelimiter]

theorem scan_flatMap_text_cons (s : Step) (h : IsSegment s.segment) (steps : List Step) :
    Token.scan ((s :: steps).flatMap text) =
      .delimiter s.binding :: .segment s.segment :: Token.scan (steps.flatMap text) := by
  rw [List.flatMap_cons, text, List.cons_append, Token.scan_delimiter_cons,
    Token.scan_segment_append h (head?_flatMap_text steps)]

/-- Steps written below another one are read as they are. -/
theorem ofTokens_flatMap_text {steps : List Step} (h : ∀ s ∈ steps, IsSegment s.segment)
    (b : Binding) : ofTokens b (Token.scan (steps.flatMap text)) = steps := by
  induction steps generalizing b with
  | nil => rfl
  | cons s steps ih =>
    rw [scan_flatMap_text_cons s (h s List.mem_cons_self)]
    simp only [ofTokens]
    rw [ih fun s hs => h s (List.mem_cons_of_mem _ hs)]

/-- The text of a path is read as the steps of the path. -/
theorem ofText_pathText {steps : List Step} (h : ∀ s ∈ steps, IsSegment s.segment) :
    ofText (pathText steps) = steps := by
  match steps, h with
  | [], _ => rfl
  | ⟨.tight, segment⟩ :: rest, h =>
    have segment_proper : IsSegment segment := h _ List.mem_cons_self
    have rest_proper : ∀ s ∈ rest, IsSegment s.segment :=
      fun s hs => h s (List.mem_cons_of_mem _ hs)
    rw [pathText, ofText, Token.scan_segment_append segment_proper (head?_flatMap_text rest)]
    simp only [ofTokens]
    rw [ofTokens_flatMap_text rest_proper]
  | ⟨.loose, segment⟩ :: rest, h =>
    exact ofTokens_flatMap_text h .tight

/-- A path from the root is written like a path below a node, except that a tight first step has no
delimiter. -/
theorem pathText_cons (s : Step) (steps : List Step) :
    pathText (s :: steps) =
      (match s.binding with
        | .tight => s.segment
        | .loose => s.text) ++ steps.flatMap text := by
  obtain ⟨binding, segment⟩ := s
  cases binding <;> rfl

theorem pathText_append {steps : List Step} (h : steps ≠ []) (more : List Step) :
    pathText (steps ++ more) = pathText steps ++ more.flatMap text := by
  cases steps with
  | nil => exact absurd rfl h
  | cons s steps =>
    rw [List.cons_append, pathText_cons, pathText_cons, List.flatMap_append, List.append_assoc]

/-- Only the path that goes nowhere has no text. -/
theorem pathText_ne_nil {steps : List Step} (h : ∀ s ∈ steps, IsSegment s.segment)
    (nonempty : steps ≠ []) : pathText steps ≠ [] := by
  intro empty
  have read := ofText_pathText h
  rw [empty] at read
  exact nonempty read.symm

/-- Different paths have different texts. -/
theorem pathText_injective {steps others : List Step} (h : ∀ s ∈ steps, IsSegment s.segment)
    (h' : ∀ s ∈ others, IsSegment s.segment) (same : pathText steps = pathText others) :
    steps = others := by
  rw [← ofText_pathText h, ← ofText_pathText h', same]

end Step

namespace Key

/-- What holds of the text of a key and of every end of it that follows a delimiter. -/
structure Regular (t : Text) : Prop where
  normal : IsNormal t
  tight : hasDouble '.' t = false
  single : hasDouble '?' t = false
  blank : ∀ c ∈ t, Text.isBlank c = false
  last : t.getLast?.any isDelimiter = false

theorem isNormal_of_normalize_eq {t : Text} (h : normalize t = t) : IsNormal t := by
  rw [← h]
  exact isNormal_normalize t

/-- The texts of keys are the regular texts that are not empty and do not start with a tight
delimiter. -/
theorem isValid_and_normalize_eq_iff {t : Text} :
    isValid t = true ∧ normalize t = t ↔ Regular t ∧ t ≠ [] ∧ t.head? ≠ some '.' := by
  rw [isValid_iff]
  constructor
  · rintro ⟨⟨nonempty, first, last, tight, single, blank⟩, normal⟩
    exact ⟨⟨isNormal_of_normalize_eq normal, tight, single, blank, last⟩, nonempty, first⟩
  · rintro ⟨⟨normal, tight, single, blank, last⟩, nonempty, first⟩
    exact ⟨⟨nonempty, first, last, tight, single, blank⟩, normal.normalize_eq⟩

theorem hasDouble_append_left {c : Char} {t rest : Text} (h : hasDouble c (t ++ rest) = false) :
    hasDouble c t = false := by
  induction t with
  | nil => rfl
  | cons a t ih =>
    rw [List.cons_append, hasDouble_cons] at h
    refine hasDouble_cons.2 ⟨?_, ih h.2⟩
    rintro ⟨same, first⟩
    exact h.1 ⟨same, by rw [List.head?_append, first, Option.some_or]⟩

namespace Regular

theorem nil : Regular [] := ⟨trivial, rfl, rfl, by simp, rfl⟩

theorem tail {c : Char} {t : Text} (h : Regular (c :: t)) : Regular t where
  normal := h.normal.tail
  tight := (hasDouble_cons.1 h.tight).2
  single := (hasDouble_cons.1 h.single).2
  blank d hd := h.blank d (List.mem_cons_of_mem _ hd)
  last := by
    cases t with
    | nil => rfl
    | cons d t =>
      have last := h.last
      rwa [List.getLast?_cons_cons] at last

/-- After a delimiter comes a character that is none. -/
theorem exists_cons_of_delimiter {d : Char} {t : Text} (h : Regular (d :: t))
    (delimiter : isDelimiter d = true) : ∃ c u, t = c :: u ∧ isDelimiter c = false := by
  cases t with
  | nil =>
    have last := h.last
    simp [delimiter] at last
  | cons c u =>
    refine ⟨c, u, rfl, ?_⟩
    obtain ⟨afterLoose, afterTight, -⟩ := h.normal
    have notTwice := (hasDouble_cons.1 h.tight).1
    by_cases loose : d = '*'
    · exact afterLoose loose
    · have tight : d = '.' := by simpa [isDelimiter, loose] using delimiter
      rw [isDelimiter_eq_false_iff]
      refine ⟨?_, afterTight tight⟩
      rintro rfl
      exact notTwice ⟨tight, rfl⟩

/-- A regular text that does not start with a delimiter is a segment and steps below it. The
recursion goes on behind the first character, or behind the delimiter after it. -/
theorem exists_segment_append : ∀ {t : Text}, Regular t → t ≠ [] →
    t.head?.any isDelimiter = false → ∃ (seg : Text) (steps : List Step), IsSegment seg ∧
      (∀ s ∈ steps, IsSegment s.segment) ∧ t = seg ++ steps.flatMap Step.text
  | [], _, nonempty, _ => absurd rfl nonempty
  | [c], h, _, first => by
    refine ⟨[c], [], ⟨by simp, ?_, rfl⟩, by simp, rfl⟩
    intro d hd
    obtain rfl := List.mem_singleton.1 hd
    exact ⟨by simpa using first, h.blank d List.mem_cons_self⟩
  | c :: d :: u, h, _, first => by
    have plain : isDelimiter c = false ∧ Text.isBlank c = false :=
      ⟨by simpa using first, h.blank c List.mem_cons_self⟩
    cases delimiter : isDelimiter d with
    | false =>
      obtain ⟨seg, steps, hseg, hsteps, text⟩ :=
        exists_segment_append h.tail (by simp) (by simpa using delimiter)
      refine ⟨c :: seg, steps, ⟨by simp, ?_, ?_⟩, hsteps, by rw [text]; rfl⟩
      · intro e he
        obtain rfl | he := List.mem_cons.1 he
        · exact plain
        · exact hseg.plain e he
      · have single := h.single
        rw [text, ← List.cons_append] at single
        exact hasDouble_append_left single
    | true =>
      obtain ⟨e, v, rfl, notDelimiter⟩ := h.tail.exists_cons_of_delimiter delimiter
      obtain ⟨seg, steps, hseg, hsteps, text⟩ :=
        exists_segment_append h.tail.tail (by simp) (by simpa using notDelimiter)
      obtain ⟨b, rfl⟩ := exists_eq_delimiter delimiter
      refine ⟨[c], ⟨b, seg⟩ :: steps, ⟨by simp, ?_, rfl⟩,
        List.forall_mem_cons.2 ⟨hseg, hsteps⟩, by rw [text]; rfl⟩
      intro e he
      obtain rfl := List.mem_singleton.1 he
      exact plain

/-- A regular text that starts with no tight delimiter is the text of a path. -/
theorem exists_pathText {t : Text} (h : Regular t) (nonempty : t ≠ [])
    (first : t.head? ≠ some '.') : ∃ steps, steps ≠ [] ∧ (∀ s ∈ steps, IsSegment s.segment) ∧
      t = Step.pathText steps := by
  obtain ⟨c, u, rfl⟩ := List.exists_cons_of_ne_nil nonempty
  cases delimiter : isDelimiter c with
  | false =>
    obtain ⟨seg, steps, hseg, hsteps, text⟩ :=
      h.exists_segment_append nonempty (by simpa using delimiter)
    exact ⟨⟨.tight, seg⟩ :: steps, by simp, List.forall_mem_cons.2 ⟨hseg, hsteps⟩, text⟩
  | true =>
    have notTight : c ≠ '.' := by simpa using first
    have loose : c = '*' := by simpa [isDelimiter, notTight] using delimiter
    obtain ⟨d, v, rfl, notDelimiter⟩ := h.exists_cons_of_delimiter delimiter
    obtain ⟨seg, steps, hseg, hsteps, text⟩ :=
      h.tail.exists_segment_append (by simp) (by simpa using notDelimiter)
    exact ⟨⟨.loose, seg⟩ :: steps, by simp, List.forall_mem_cons.2 ⟨hseg, hsteps⟩,
      by rw [text, loose]; rfl⟩

theorem cons_plain {c : Char} {t : Text} (h : Regular t) (delimiter : isDelimiter c = false)
    (blank : Text.isBlank c = false) (single : ¬ (c = '?' ∧ t.head? = some '?')) :
    Regular (c :: t) where
  normal := by
    obtain ⟨notTight, notLoose⟩ := isDelimiter_eq_false_iff.1 delimiter
    cases t with
    | nil => trivial
    | cons d t => exact ⟨fun loose => absurd loose notLoose, fun tight => absurd tight notTight,
        h.normal⟩
  tight := by
    have notTight := (isDelimiter_eq_false_iff.1 delimiter).1
    exact hasDouble_cons.2 ⟨fun both => notTight both.1, h.tight⟩
  single := hasDouble_cons.2 ⟨single, h.single⟩
  blank := List.forall_mem_cons.2 ⟨blank, h.blank⟩
  last := by
    cases t with
    | nil => simpa using delimiter
    | cons d t =>
      rw [List.getLast?_cons_cons]
      exact h.last

theorem cons_delimiter {d : Char} {t : Text} (h : Regular (d :: t))
    (delimiter : isDelimiter d = false) (b : Binding) : Regular (b.delimiter :: d :: t) where
  normal := by
    obtain ⟨notTight, notLoose⟩ := isDelimiter_eq_false_iff.1 delimiter
    exact ⟨fun _ => delimiter, fun _ => notLoose, h.normal⟩
  tight := by
    refine hasDouble_cons.2 ⟨?_, h.tight⟩
    rintro ⟨-, second⟩
    exact (isDelimiter_eq_false_iff.1 delimiter).1 (by simpa using second)
  single := hasDouble_cons.2 ⟨fun both => by cases b <;> simp [Binding.delimiter] at both, h.single⟩
  blank := List.forall_mem_cons.2 ⟨by cases b <;> decide, h.blank⟩
  last := by
    rw [List.getLast?_cons_cons]
    exact h.last

/-- A segment can be put in front of a text that is empty or starts with a delimiter. -/
theorem segment_append {seg rest : Text} (h : Regular rest) (segment : IsSegment seg)
    (ends : rest.head?.all isDelimiter = true) : Regular (seg ++ rest) := by
  obtain ⟨-, plain, single⟩ := segment
  induction seg with
  | nil => exact h
  | cons c seg ih =>
    obtain ⟨notDouble, single⟩ := hasDouble_cons.1 single
    obtain ⟨⟨delimiter, blank⟩, plain⟩ := List.forall_mem_cons.1 plain
    refine (ih plain single).cons_plain delimiter blank ?_
    rintro ⟨question, next⟩
    cases seg with
    | cons d seg => exact notDouble ⟨question, by simpa using next⟩
    | nil =>
      rw [List.nil_append] at next
      rw [next] at ends
      cases ends

theorem flatMap_text {steps : List Step} (h : ∀ s ∈ steps, IsSegment s.segment) :
    Regular (steps.flatMap Step.text) := by
  induction steps with
  | nil => exact nil
  | cons s steps ih =>
    obtain ⟨segment, rest⟩ := List.forall_mem_cons.1 h
    have below := (ih rest).segment_append segment (Step.head?_flatMap_text steps)
    obtain ⟨c, seg, first⟩ := List.exists_cons_of_ne_nil segment.nonempty
    have delimiter := (segment.plain c (by rw [first]; exact List.mem_cons_self)).1
    rw [List.flatMap_cons, Step.text, List.cons_append]
    rw [first, List.cons_append] at below ⊢
    exact below.cons_delimiter delimiter s.binding

theorem pathText {steps : List Step} (h : ∀ s ∈ steps, IsSegment s.segment) :
    Regular (Step.pathText steps) := by
  match steps, h with
  | [], _ => exact nil
  | ⟨.tight, segment⟩ :: rest, h =>
    obtain ⟨segment_proper, rest_proper⟩ := List.forall_mem_cons.1 h
    exact (flatMap_text rest_proper).segment_append segment_proper (Step.head?_flatMap_text rest)
  | ⟨.loose, segment⟩ :: rest, h => exact flatMap_text h

end Regular

theorem head?_pathText {steps : List Step} (h : ∀ s ∈ steps, IsSegment s.segment) :
    (Step.pathText steps).head? ≠ some '.' := by
  match steps, h with
  | [], _ => simp [Step.pathText]
  | ⟨.tight, segment⟩ :: rest, h =>
    have proper : IsSegment segment := h _ List.mem_cons_self
    obtain ⟨c, seg, first⟩ := List.exists_cons_of_ne_nil proper.nonempty
    have delimiter := (proper.plain c (by rw [first]; exact List.mem_cons_self)).1
    rw [Step.pathText, first]
    simpa using (isDelimiter_eq_false_iff.1 delimiter).1
  | ⟨.loose, segment⟩ :: rest, h => simp [Step.pathText, Binding.delimiter]

/-- The key with given steps. -/
def ofSteps (steps : List Step) (nonempty : steps ≠ []) (h : ∀ s ∈ steps, IsSegment s.segment) :
    Key :=
  have isKey := isValid_and_normalize_eq_iff.2
    ⟨.pathText h, Step.pathText_ne_nil h nonempty, head?_pathText h⟩
  ⟨Step.pathText steps, isKey.1, isKey.2⟩

@[simp] theorem text_ofSteps (steps : List Step) (nonempty : steps ≠ [])
    (h : ∀ s ∈ steps, IsSegment s.segment) :
    (ofSteps steps nonempty h).text = Step.pathText steps := rfl

@[simp] theorem steps_ofSteps (steps : List Step) (nonempty : steps ≠ [])
    (h : ∀ s ∈ steps, IsSegment s.segment) : (ofSteps steps nonempty h).steps = steps :=
  Step.ofText_pathText h

/-- Every key is given by its steps. -/
theorem exists_eq_ofSteps (k : Key) : ∃ steps nonempty h, k = ofSteps steps nonempty h := by
  obtain ⟨regular, nonempty, first⟩ :=
    isValid_and_normalize_eq_iff.1 ⟨k.isValid_text, k.normalize_text⟩
  obtain ⟨steps, hsteps, proper, text⟩ := regular.exists_pathText nonempty first
  exact ⟨steps, hsteps, proper, Key.ext text⟩

theorem steps_ne_nil (k : Key) : k.steps ≠ [] := by
  obtain ⟨steps, nonempty, h, rfl⟩ := k.exists_eq_ofSteps
  simpa using nonempty

theorem isSegment_of_mem_steps (k : Key) : ∀ s ∈ k.steps, IsSegment s.segment := by
  obtain ⟨steps, nonempty, h, rfl⟩ := k.exists_eq_ofSteps
  simpa using h

/-- Writing the steps of a key gives its text. -/
theorem pathText_steps (k : Key) : Step.pathText k.steps = k.text := by
  obtain ⟨steps, nonempty, h, rfl⟩ := k.exists_eq_ofSteps
  rw [steps_ofSteps, text_ofSteps]

/-- Keys with the same steps are the same. -/
theorem steps_injective {k l : Key} (h : k.steps = l.steps) : k = l := by
  rw [Key.ext_iff, ← pathText_steps k, ← pathText_steps l, h]

theorem hasDouble_append {c : Char} {t rest : Text} :
    hasDouble c (t ++ rest) = false ↔ hasDouble c t = false ∧ hasDouble c rest = false ∧
      ¬ (t.getLast? = some c ∧ rest.head? = some c) := by
  induction t with
  | nil => simp [hasDouble]
  | cons a t ih =>
    rw [List.cons_append, hasDouble_cons, hasDouble_cons, ih]
    cases t with
    | nil => simp [hasDouble, and_comm]
    | cons b t => simp [List.getLast?_cons_cons, and_assoc]

/-- Behind a key and a tight delimiter exactly the well-formed keys can stand. -/
theorem isValid_text_append_iff (k : Key) {relative : Text} :
    isValid (k.text ++ '.' :: relative) = true ↔ isValid relative = true := by
  obtain ⟨nonempty, first, last, tight, single, blank⟩ := isValid_iff.1 k.isValid_text
  have notTight : k.text.getLast? ≠ some '.' := by
    intro ends
    rw [ends] at last
    cases last
  have head : (k.text ++ '.' :: relative).head? = k.text.head? := by
    obtain ⟨c, t, text⟩ := List.exists_cons_of_ne_nil nonempty
    rw [text]
    rfl
  rw [isValid_iff, isValid_iff, hasDouble_append, hasDouble_append, hasDouble_cons, hasDouble_cons,
    head, List.forall_mem_append, List.forall_mem_cons]
  constructor
  · rintro ⟨-, -, last', ⟨-, ⟨notDouble, tight'⟩, -⟩, ⟨-, ⟨-, single'⟩, -⟩, -, -, blank'⟩
    cases relative with
    | nil =>
      rw [List.getLast?_append] at last'
      cases last'
    | cons c relative =>
      refine ⟨by simp, by simpa using notDouble, ?_, tight', single', blank'⟩
      rwa [List.getLast?_append, List.getLast?_cons_cons,
        List.getLast?_eq_some_getLast (by simp), Option.some_or,
        ← List.getLast?_eq_some_getLast] at last'
  · rintro ⟨nonempty', first', last', tight', single', blank'⟩
    refine ⟨by simp, first, ?_, ⟨tight, ⟨by simpa using first', tight'⟩, fun both =>
      notTight both.1⟩, ⟨single, ⟨by simp, single'⟩, by simp⟩, blank, by decide, blank'⟩
    cases relative with
    | nil => exact absurd rfl nonempty'
    | cons c relative =>
      rwa [List.getLast?_append, List.getLast?_cons_cons,
        List.getLast?_eq_some_getLast (by simp), Option.some_or,
        ← List.getLast?_eq_some_getLast]

/-- A tight delimiter is taken up by a key that starts with a loose one. Either way the key is then
written like a path below a node. -/
theorem attach_tight_text (k : Key) : attach '.' k.text = k.steps.flatMap Step.text := by
  rw [← k.pathText_steps, attach_tight]
  have proper := k.isSegment_of_mem_steps
  match k.steps, k.steps_ne_nil, proper with
  | ⟨.tight, segment⟩ :: rest, _, proper =>
    have segment_proper : IsSegment segment := proper _ List.mem_cons_self
    obtain ⟨c, seg, first⟩ := List.exists_cons_of_ne_nil segment_proper.nonempty
    have delimiter := (segment_proper.plain c (by rw [first]; exact List.mem_cons_self)).1
    have notLoose : (Step.pathText (⟨.tight, segment⟩ :: rest)).head? ≠ some '*' := by
      rw [Step.pathText, first]
      simpa using (isDelimiter_eq_false_iff.1 delimiter).2
    rw [if_neg notLoose]
    rfl
  | ⟨.loose, segment⟩ :: rest, _, _ => rfl

theorem IsNormal.foldr_attach {t rest : Text} (h : IsNormal (t ++ rest)) :
    t.foldr Key.attach rest = t ++ rest := by
  induction t with
  | nil => rfl
  | cons c t ih =>
    rw [List.foldr_cons, ih h.tail]
    exact h.attach_eq

/-- A well-formed key keeps its first character in normal form, a loose delimiter included. -/
theorem head?_text_of_parse {raw : Text} {k : Key} (read : parse raw = .ok k) :
    k.text.head? = raw.head? := by
  obtain ⟨valid, text⟩ := parse_eq_ok_iff.1 read
  obtain ⟨nonempty, notTight, -⟩ := isValid_iff.1 valid
  obtain ⟨c, t, rfl⟩ := List.exists_cons_of_ne_nil nonempty
  rw [text, head?_normalize_cons (by simpa using notTight), List.head?_cons]

/-- A key behind another one becomes the steps below those of the other. -/
theorem steps_join (k : Key) {raw : Text} {relative : Key} (read : parse raw = .ok relative) :
    ∃ joined, k.join raw = .ok joined ∧ joined.steps = k.steps ++ relative.steps := by
  obtain ⟨valid, text⟩ := parse_eq_ok_iff.1 read
  have proper : ∀ s ∈ k.steps ++ relative.steps, IsSegment s.segment :=
    List.forall_mem_append.2 ⟨k.isSegment_of_mem_steps, relative.isSegment_of_mem_steps⟩
  have nonempty : k.steps ++ relative.steps ≠ [] :=
    List.append_ne_nil_of_left_ne_nil k.steps_ne_nil _
  have written : Step.pathText (k.steps ++ relative.steps) =
      k.text ++ relative.steps.flatMap Step.text := by
    rw [Step.pathText_append k.steps_ne_nil, k.pathText_steps]
  have normal : normalize (k.text ++ '.' :: raw) =
      Step.pathText (k.steps ++ relative.steps) := by
    have regular := (Regular.pathText proper).normal
    rw [written] at regular ⊢
    rw [normalize_append, normalize_cons, ← text, attach_tight_text]
    exact regular.foldr_attach
  refine ⟨ofSteps _ nonempty proper, ?_, steps_ofSteps _ nonempty proper⟩
  exact parse_eq_ok_iff.2 ⟨k.isValid_text_append_iff.2 valid, normal.symm⟩

/-- Joining fails where reading the relative key fails. -/
theorem join_of_not_isValid (k : Key) {relative : Text} (h : isValid relative = false) :
    k.join relative = .error (.malformedKey (k.text ++ '.' :: relative)) := by
  apply parse_of_not_isValid
  rw [← Bool.not_eq_true] at h ⊢
  intro joined
  exact h (k.isValid_text_append_iff.1 joined)

end Key

end ResourceLookup
