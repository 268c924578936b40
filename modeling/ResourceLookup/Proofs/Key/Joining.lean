import ResourceLookup.Proofs.Key.Steps

/-!
# Joined keys

A text behind a key and a tight delimiter is read as it would be by itself, although the delimiter
may run into those that the text starts with. `join_eq_ok_iff` says when joining succeeds and which
key comes out, told by its steps; since lists of steps are appended, nothing depends on the order in
which keys are joined.
-/

namespace ResourceLookup.Key

variable {k l joined : Key} {raw relative last : Text}

/-- Joining succeeds with the key whose steps are those of both. -/
theorem join_eq_ok_iff :
    k.join relative = .ok joined ↔
      ∃ l, parse relative = .ok l ∧ joined.steps = k.steps ++ l.steps := by
  constructor
  · intro join
    cases valid : isValid relative with
    | false =>
      rw [join_of_not_isValid k valid] at join
      cases join
    | true =>
      have read := parse_of_isValid valid
      obtain ⟨other, join', steps⟩ := k.steps_join read
      obtain rfl : other = joined := Except.ok.inj (join'.symm.trans join)
      exact ⟨_, read, steps⟩
  · rintro ⟨l, read, steps⟩
    obtain ⟨other, join, steps'⟩ := k.steps_join read
    rw [join, steps_injective (steps'.trans steps.symm)]

theorem exists_join_iff (k : Key) (relative : Text) :
    (∃ joined, k.join relative = .ok joined) ↔ isValid relative = true := by
  constructor
  · rintro ⟨joined, join⟩
    obtain ⟨l, read, -⟩ := join_eq_ok_iff.1 join
    exact (parse_eq_ok_iff.1 read).1
  · intro valid
    obtain ⟨joined, join, -⟩ := k.steps_join (parse_of_isValid valid)
    exact ⟨joined, join⟩

theorem join_eq_error_iff {e : Error} :
    k.join relative = .error e ↔
      isValid relative = false ∧ e = .malformedKey (k.text ++ '.' :: relative) := by
  cases valid : isValid relative with
  | false =>
    rw [join_of_not_isValid k valid, Except.error.injEq]
    exact ⟨fun same => ⟨rfl, same.symm⟩, fun same => same.2.symm⟩
  | true =>
    obtain ⟨joined, join, -⟩ := k.steps_join (parse_of_isValid valid)
    simp [join]

/-- The text of a key starts with a loose delimiter exactly if its first step is loose. -/
theorem head?_steps_map_binding (k : Key) :
    k.steps.head?.map (·.binding) = some (if k.text.head? = some '*' then .loose else .tight) := by
  rw [← k.pathText_steps]
  have proper := k.isSegment_of_mem_steps
  match k.steps, k.steps_ne_nil, proper with
  | ⟨.loose, segment⟩ :: rest, _, _ => rfl
  | ⟨.tight, segment⟩ :: rest, _, proper =>
    obtain ⟨nonempty, plain, -⟩ : IsSegment segment := proper _ List.mem_cons_self
    obtain ⟨c, seg, rfl⟩ := List.exists_cons_of_ne_nil nonempty
    have notLoose : c ≠ '*' := (isDelimiter_eq_false_iff.1 (plain c List.mem_cons_self).1).2
    simp [Step.pathText, notLoose]

/-- Joining three keys gives the same key in either order. -/
theorem exists_join_assoc (k : Key) (valid : isValid relative = true)
    (valid' : isValid last = true) :
    ∃ whole, (k.join relative).bind (·.join last) = .ok whole ∧
      ((parse relative).bind (·.join last)).bind (k.join ·.text) = .ok whole := by
  have read := parse_of_isValid valid
  have read' := parse_of_isValid valid'
  obtain ⟨front, joinFront, frontSteps⟩ := k.steps_join read
  obtain ⟨whole, joinWhole, wholeSteps⟩ := front.steps_join read'
  obtain ⟨back, joinBack, backSteps⟩ := Key.steps_join _ read'
  refine ⟨whole, ?_, ?_⟩
  · rw [joinFront]
    exact joinWhole
  · have below : k.join back.text = .ok whole := by
      refine join_eq_ok_iff.2 ⟨back, parse_text back, ?_⟩
      rw [wholeSteps, frontSteps, backSteps, List.append_assoc]
    rw [read]
    show ((Key.join _ last).bind (k.join ·.text)) = .ok whole
    rw [joinBack]
    exact below

/-- A text can be joined to a key exactly if it is a well-formed key itself, and then its steps come
behind those of the key. The first of them is loose if the text starts with a loose delimiter, and
else tight. It does not matter which two of three keys are joined first. If joining fails, the error
tells the whole text. -/
theorem join_appends_steps (read : parse raw = .ok k) (relative : Text) :
    ((∃ joined, k.join relative = .ok joined) ↔ isValid relative = true) ∧
      (∀ joined, k.join relative = .ok joined → ∃ l, parse relative = .ok l ∧
        joined.steps = k.steps ++ l.steps ∧
        l.steps.head?.map (·.binding) =
          some (if relative.head? = some '*' then .loose else .tight)) ∧
      (∀ last, isValid relative = true → isValid last = true → ∃ whole,
        (k.join relative).bind (·.join last) = .ok whole ∧
          ((parse relative).bind (·.join last)).bind (k.join ·.text) = .ok whole) ∧
      ∀ e, k.join relative = .error e ↔
        isValid relative = false ∧ e = .malformedKey (normalize raw ++ '.' :: relative) := by
  refine ⟨k.exists_join_iff relative, ?_, fun last => k.exists_join_assoc, fun e => ?_⟩
  · intro joined join
    obtain ⟨l, read', steps⟩ := join_eq_ok_iff.1 join
    refine ⟨l, read', steps, ?_⟩
    rw [l.head?_steps_map_binding, head?_text_of_parse read']
  · rw [join_eq_error_iff, (parse_eq_ok_iff.1 read).2]

/-- A text that starts with a mixed run of delimiters is joined, and one that starts with a tight
delimiter is refused. -/
theorem join_appends_steps_behind_mixed_runs :
    let k : Key := ⟨"é*b".toList, by decide +kernel, by decide +kernel⟩
    parse "é.*.b".toList = .ok k ∧
      (∃ joined, k.join "*.?**C/d".toList = .ok joined ∧
        joined.steps = k.steps ++ [⟨.loose, "?".toList⟩, ⟨.loose, "C/d".toList⟩]) ∧
      (∃ whole, (k.join "*.c".toList).bind (·.join "d*.e".toList) = .ok whole ∧
        ((parse "*.c".toList).bind (·.join "d*.e".toList)).bind (k.join ·.text) = .ok whole) ∧
      k.join ".c".toList = .error (.malformedKey "é*b..c".toList) := by
  intro k
  have read : parse "é.*.b".toList = .ok k :=
    parse_eq_ok_iff.2 ⟨by decide +kernel, by decide +kernel⟩
  obtain ⟨succeeds, appends, -, -⟩ := join_appends_steps read "*.?**C/d".toList
  obtain ⟨-, -, assoc, -⟩ := join_appends_steps read "*.c".toList
  obtain ⟨-, -, -, fails⟩ := join_appends_steps read ".c".toList
  refine ⟨read, ?_, assoc "d*.e".toList (by decide +kernel) (by decide +kernel), ?_⟩
  · obtain ⟨joined, join⟩ := succeeds.2 (by decide +kernel)
    obtain ⟨l, read', appended, -⟩ := appends joined join
    have below : l.steps = [⟨.loose, "?".toList⟩, ⟨.loose, "C/d".toList⟩] := by
      rw [steps, (parse_eq_ok_iff.1 read').2]
      decide +kernel
    exact ⟨joined, join, below ▸ appended⟩
  · exact (fails _).2 ⟨by decide +kernel, by decide +kernel⟩

end ResourceLookup.Key
