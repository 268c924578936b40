import Mathlib.Data.List.TakeWhile
import Mathlib.Logic.Relation
import ResourceLookup.Proofs.Key.Grammar

/-!
# Normal forms by rewriting

Two neighbouring delimiters of which one is loose may be rewritten as a single loose delimiter.
Rewriting shortens a text, so it ends; and it never changes the normal form, so it ends in the same
text wherever it is applied first. `normalize_is_end_of_rewriting` says that this text is the normal
form, and that one pass from left to right finds it which holds back the delimiters read last.
-/

namespace ResourceLookup.Key

open Relation

/-- The pairs of delimiters that mean the same as a single loose one. -/
def loosePairs : List Text := [['.', '*'], ['*', '.'], ['*', '*']]

/-- A pair of delimiters somewhere in a text becomes a single loose one. -/
inductive Rewrites : Text → Text → Prop
  | collapse {pair : Text} (loose : pair ∈ loosePairs) (before behind : Text) :
      Rewrites (before ++ pair ++ behind) (before ++ '*' :: behind)

/-- Writes a run of delimiters. -/
def flush (run : Text) : Text := if '*' ∈ run then ['*'] else run

/-- Writes a text from left to right. The run of delimiters that was read last is held back until
its end is reached. -/
def pass (run : Text) : Text → Text
  | [] => flush run
  | c :: rest => if isDelimiter c then pass (run ++ [c]) rest else flush run ++ c :: pass [] rest

variable {s t before run behind pair : Text} {c d : Char}

theorem mem_loosePairs_iff :
    pair ∈ loosePairs ↔ pair = ['.', '*'] ∨ pair = ['*', '.'] ∨ pair = ['*', '*'] := by
  simp [loosePairs]

theorem exists_of_mem_loosePairs (loose : pair ∈ loosePairs) : ∃ c d, pair = [c, d] := by
  obtain rfl | rfl | rfl := mem_loosePairs_iff.1 loose <;> exact ⟨_, _, rfl⟩

theorem dropWhile_attach_tight (rest : Text) :
    (attach '.' rest).dropWhile isDelimiter = rest.dropWhile isDelimiter := by
  rw [attach_tight]
  split
  · rfl
  · exact List.dropWhile_cons_of_pos rfl

theorem dropWhile_dropWhile (rest : Text) :
    (rest.dropWhile isDelimiter).dropWhile isDelimiter = rest.dropWhile isDelimiter :=
  List.dropWhile_eq_self_iff.2 (List.dropWhile_get_zero_not isDelimiter rest)

/-- The delimiter that goes is taken up by the one that stays. -/
theorem foldr_attach_loosePair (loose : pair ∈ loosePairs) (rest : Text) :
    pair.foldr attach rest = attach '*' rest := by
  obtain rfl | rfl | rfl := mem_loosePairs_iff.1 loose
  · rw [List.foldr_cons, List.foldr_cons, List.foldr_nil, attach_tight, attach_loose]
    rfl
  · rw [List.foldr_cons, List.foldr_cons, List.foldr_nil, attach_loose, dropWhile_attach_tight,
      attach_loose]
  · rw [List.foldr_cons, List.foldr_cons, List.foldr_nil, attach_loose, attach_loose,
      List.dropWhile_cons_of_pos rfl, dropWhile_dropWhile]

namespace Rewrites

theorem cons (c : Char) (h : Rewrites s t) : Rewrites (c :: s) (c :: t) := by
  obtain ⟨loose, before, behind⟩ := h
  exact collapse loose (c :: before) behind

theorem length_eq (h : Rewrites s t) : s.length = t.length + 1 := by
  obtain ⟨loose, before, behind⟩ := h
  obtain ⟨c, d, rfl⟩ := exists_of_mem_loosePairs loose
  simp only [List.length_append, List.length_cons, List.length_nil]
  omega

theorem normalize_eq (h : Rewrites s t) : normalize s = normalize t := by
  obtain ⟨loose, before, behind⟩ := h
  rw [List.append_assoc, normalize_append, normalize_append, foldr_attach_loosePair loose,
    normalize_append, normalize_cons]

/-- Rewriting touches delimiters only. -/
theorem filter_eq (h : Rewrites s t) :
    s.filter (!isDelimiter ·) = t.filter (!isDelimiter ·) := by
  obtain ⟨loose, before, behind⟩ := h
  obtain rfl | rfl | rfl := mem_loosePairs_iff.1 loose <;> simp [isDelimiter]

end Rewrites

theorem isNormal_cons_cons :
    IsNormal (c :: d :: t) ↔ [c, d] ∉ loosePairs ∧ IsNormal (d :: t) := by
  rw [mem_loosePairs_iff, IsNormal, isDelimiter_eq_false_iff]
  simp only [List.cons.injEq, and_true]
  tauto

theorem IsNormal.not_rewrites (h : IsNormal s) : ¬ Rewrites s t := by
  rintro ⟨loose, before, behind⟩
  obtain ⟨c, d, rfl⟩ := exists_of_mem_loosePairs loose
  induction before with
  | nil => exact (isNormal_cons_cons.1 h).1 loose
  | cons e before ih => exact ih h.tail

/-- A text that is not normal has a pair of delimiters to rewrite. -/
theorem exists_rewrites_of_not_isNormal (h : ¬ IsNormal t) : ∃ u, Rewrites t u := by
  induction t with
  | nil => exact absurd trivial h
  | cons c t ih =>
    by_cases tail : IsNormal t
    · match t, tail with
      | [], _ => exact absurd trivial h
      | d :: behind, tail =>
        have loose : [c, d] ∈ loosePairs := by
          by_contra plain
          exact h (isNormal_cons_cons.2 ⟨plain, tail⟩)
        exact ⟨_, .collapse loose [] behind⟩
    · obtain ⟨u, step⟩ := ih tail
      exact ⟨c :: u, step.cons c⟩

theorem rewrites_normalize (s : Text) : ReflTransGen Rewrites s (normalize s) := by
  induction hn : s.length using Nat.strong_induction_on generalizing s with
  | h n ih =>
    by_cases normal : IsNormal s
    · rw [normal.normalize_eq]
    · obtain ⟨u, step⟩ := exists_rewrites_of_not_isNormal normal
      have length := step.length_eq
      rw [step.normalize_eq]
      exact .head step (ih u.length (by omega) u rfl)

/-- Every text on the way has the same normal form. -/
theorem normalize_eq_of_rewrites (h : ReflTransGen Rewrites s t) : normalize s = normalize t := by
  induction h with
  | refl => rfl
  | tail _ step ih => rw [ih, step.normalize_eq]

theorem filter_eq_of_rewrites (h : ReflTransGen Rewrites s t) :
    s.filter (!isDelimiter ·) = t.filter (!isDelimiter ·) := by
  induction h with
  | refl => rfl
  | tail _ step ih => rw [ih, step.filter_eq]

/-- No text can be rewritten for ever. -/
theorem not_rewrites_forever (way : Nat → Text) : ¬ ∀ i, Rewrites (way i) (way (i + 1)) := by
  intro steps
  have shorter (i : Nat) : (way i).length + i = (way 0).length := by
    induction i with
    | zero => rfl
    | succ i ih =>
      have length := (steps i).length_eq
      omega
  have last := shorter ((way 0).length + 1)
  omega

theorem foldr_attach_tight (tight : ∀ c ∈ run, c = '.') (starts : t.head? ≠ some '*') :
    run.foldr attach t = run ++ t := by
  induction run with
  | nil => rfl
  | cons c run ih =>
    obtain ⟨rfl, others⟩ := List.forall_mem_cons.1 tight
    have first : (run ++ t).head? ≠ some '*' := by
      cases run with
      | nil => exact starts
      | cons d run => simp [others d List.mem_cons_self]
    rw [List.foldr_cons, ih others, attach_tight, if_neg first, List.cons_append]

/-- A run that nothing behind it goes on with is written by itself. -/
theorem foldr_attach_run (delimiters : ∀ c ∈ run, c = '.' ∨ c = '*')
    (starts : t.head?.any isDelimiter = false) : run.foldr attach t = flush run ++ t := by
  by_cases loose : '*' ∈ run
  · rw [flush, if_pos loose]
    exact Piece.foldr_attach_of_mem delimiters loose starts
  · rw [flush, if_neg loose]
    apply foldr_attach_tight
    · intro c mem
      obtain tight | star := delimiters c mem
      · exact tight
      · exact absurd (star ▸ mem) loose
    · intro star
      simp [star, isDelimiter] at starts

/-- The pass writes the normal form of what it holds back together with what is left to read. -/
theorem pass_eq (delimiters : ∀ c ∈ run, c = '.' ∨ c = '*') (t : Text) :
    pass run t = normalize (run ++ t) := by
  induction t generalizing run with
  | nil =>
    have alone := foldr_attach_run (t := []) delimiters rfl
    rw [pass, List.append_nil, normalize, alone, List.append_nil]
  | cons c t ih =>
    rw [pass]
    split
    · rename_i delimiter
      have longer : ∀ d ∈ run ++ [c], d = '.' ∨ d = '*' := by
        rw [List.forall_mem_append, List.forall_mem_singleton]
        exact ⟨delimiters, by simpa [isDelimiter] using delimiter⟩
      rw [ih longer, List.append_assoc, List.singleton_append]
    · rename_i plain
      have plain : isDelimiter c = false := by simpa using plain
      rw [ih (by simp), List.nil_append, normalize_append, normalize_cons,
        attach_of_isDelimiter_eq_false plain, foldr_attach_run delimiters (by simpa using plain)]

/-- What is attached to a text does not depend on what stands behind its first character that is no
delimiter. -/
theorem attach_append (plain : ∃ d ∈ t, isDelimiter d = false) (c : Char) (rest : Text) :
    attach c (t ++ rest) = attach c t ++ rest := by
  obtain ⟨d, mem, plain⟩ := plain
  have kept : ¬ (t.dropWhile isDelimiter).isEmpty = true := by
    rw [List.isEmpty_iff, List.dropWhile_eq_nil_iff]
    intro delimiters
    rw [delimiters d mem] at plain
    cases plain
  have first : (t ++ rest).head? = t.head? := by
    rw [List.head?_append_of_ne_nil _ (List.ne_nil_of_mem mem)]
  rw [attach, attach, List.dropWhile_append, if_neg kept, first]
  split
  · rfl
  · split <;> rfl

/-- A text that ends in no delimiter is normalized apart from what follows. -/
theorem normalize_append_of_getLast? (ends : before.getLast?.any isDelimiter = false) (t : Text) :
    normalize (before ++ t) = normalize before ++ normalize t := by
  induction before with
  | nil => rfl
  | cons c before ih =>
    rw [List.cons_append, normalize_cons, normalize_cons]
    cases last : before.getLast? with
    | none =>
      obtain rfl := List.getLast?_eq_none_iff.1 last
      have plain : isDelimiter c = false := ends
      rw [normalize_nil, List.nil_append, attach_of_isDelimiter_eq_false plain,
        attach_of_isDelimiter_eq_false plain]
      rfl
    | some d =>
      have ends : before.getLast?.any isDelimiter = false := by
        rwa [List.getLast?_cons, last, Option.getD_some, ← last] at ends
      have plain : isDelimiter d = false := by simpa [last] using ends
      rw [ih ends]
      apply attach_append
      exact ⟨d, List.mem_of_getLast? ((getLast?_normalize ends).trans last), plain⟩

/-- A run of tight delimiters alone is left as it is. -/
theorem normalize_tight_run (tight : ∀ c ∈ run, c = '.')
    (ends : before.getLast?.any isDelimiter = false)
    (starts : behind.head?.any isDelimiter = false) :
    normalize (before ++ run ++ behind) = normalize before ++ run ++ normalize behind := by
  have first : (normalize behind).head? ≠ some '*' := by
    cases behind with
    | nil => simp
    | cons c behind =>
      have plain : isDelimiter c = false := starts
      rw [normalize_cons, attach_of_isDelimiter_eq_false plain, List.head?_cons]
      rintro ⟨rfl⟩
      cases plain
  rw [List.append_assoc, normalize_append_of_getLast? ends, normalize_append,
    foldr_attach_tight tight first, List.append_assoc]

/-- Rewriting a text ends, and it ends in its normal form and nowhere else, wherever it is applied
on the way. One pass from left to right finds the same text. It follows that a normal form is its
own normal form, that runs of tight delimiters alone are left as they are, that all other characters
stay in their order, and that a well-formed key stays well formed. -/
theorem normalize_is_end_of_rewriting (s : Text) :
    (¬ ∃ way : Nat → Text, way 0 = s ∧ ∀ i, Rewrites (way i) (way (i + 1))) ∧
      (∀ t, ReflTransGen Rewrites s t → ReflTransGen Rewrites t (normalize s) ∧
        ((∀ u, ¬ Rewrites t u) ↔ t = normalize s)) ∧
      pass [] s = normalize s ∧
      normalize (normalize s) = normalize s ∧
      (∀ before run behind, s = before ++ run ++ behind → (∀ c ∈ run, c = '.') →
        before.getLast?.any isDelimiter = false → behind.head?.any isDelimiter = false →
        normalize s = normalize before ++ run ++ normalize behind) ∧
      (normalize s).filter (!isDelimiter ·) = s.filter (!isDelimiter ·) ∧
      (isValid s = true → isValid (normalize s) = true) := by
  refine ⟨?_, ?_, ?_, normalize_normalize s, ?_, ?_, isValid_normalize⟩
  · rintro ⟨way, -, steps⟩
    exact not_rewrites_forever way steps
  · intro t reached
    rw [normalize_eq_of_rewrites reached]
    refine ⟨rewrites_normalize t, ?_⟩
    constructor
    · intro ended
      by_contra other
      have unfinished : ¬ IsNormal t := fun normal => other normal.normalize_eq.symm
      obtain ⟨u, step⟩ := exists_rewrites_of_not_isNormal unfinished
      exact ended u step
    · intro same u step
      have normal : IsNormal t := same ▸ isNormal_normalize t
      exact normal.not_rewrites step
  · exact pass_eq (by simp) s
  · rintro before run behind rfl tight ends starts
    exact normalize_tight_run tight ends starts
  · exact (filter_eq_of_rewrites (rewrites_normalize s)).symm

/-- A run is rewritten from its middle, behind a run of tight delimiters. -/
theorem normalize_is_end_of_rewriting_from_middle :
    let s := "é..b.*.*c".toList
    let t := "é..b.**c".toList
    let k := "a*.b".toList
    Rewrites s t ∧ ReflTransGen Rewrites t "é..b*c".toList ∧ pass [] s = "é..b*c".toList ∧
      normalize s = "é".toList ++ "..".toList ++ normalize "b.*.*c".toList ∧
      isValid k = true ∧ isValid (normalize k) = true := by
  intro s t k
  have loose : "*.".toList ∈ loosePairs := by decide
  have step : Rewrites s t := .collapse loose "é..b.".toList "*c".toList
  have normal : normalize s = "é..b*c".toList := by decide
  have valid : isValid k = true := by decide +kernel
  obtain ⟨-, ends, passed, -, runs, -⟩ := normalize_is_end_of_rewriting s
  obtain ⟨-, -, -, -, -, -, kept⟩ := normalize_is_end_of_rewriting k
  refine ⟨step, normal ▸ (ends t (.single step)).1, passed.trans normal, ?_, valid, kept valid⟩
  exact runs "é".toList "..".toList "b.*.*c".toList rfl (by simp) (by decide) (by decide)

end ResourceLookup.Key
