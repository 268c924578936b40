import ResourceLookup.Proofs.Lookup.Pattern
import ResourceLookup.Proofs.Session.Run

/-!
# Tight and loose bindings

A search prefers tight bindings to loose ones wherever it stands, but it decides node by node. So a
tight pattern wins against a loose one if the two part at the loose step. It may lose where they
part before, at two tight steps of which the other pattern has the one that is tried first.
-/

namespace ResourceLookup

/-- What comes before a tight pick is tight and takes the same segment. -/
theorem Pick.Before.of_tight {p q : Pick} {consumed count : Nat} (h : p.Before q)
    (tight : q.binding = .tight) (allowed : p.Allowed consumed count)
    (allowed' : q.Allowed consumed count) :
    p.binding = .tight ∧ p.anchor = q.anchor ∧ p.choice.rank < q.choice.rank := by
  have binding : p.binding = .tight := by
    cases bound : p.binding with
    | tight => rfl
    | loose => simp [Pick.Before, bound, tight, Binding.index] at h
  simp only [Pick.Allowed, binding] at allowed
  simp only [Pick.Allowed, tight] at allowed'
  simp only [Pick.Before, binding, tight, Nat.lt_irrefl, false_or, true_and] at h
  exact ⟨binding, by omega, by omega⟩

namespace Lookup

variable {l : Lookup} {query : List Text} {i child found matching : NodeIndex} {consumed : Nat}
variable {picks rest others : List Pick} {pick other : Pick}

/-- Of two ways that match a query tightly up to a segment and then part, the first takes this
segment by an earlier choice. -/
inductive Outranks (l : Lookup) (query : List Text) : Nat → List Step → List Step → Prop
  | here {consumed : Nat} {segment name name' : Text} {choice choice' : Choice}
      {rest rest' : List Step} (taken : query[consumed]? = some segment)
      (accepts : l.Accepts (query.take (consumed + 1)) segment name choice)
      (accepts' : l.Accepts (query.take (consumed + 1)) segment name' choice')
      (earlier : choice.rank < choice'.rank) (part : name ≠ name') :
      Outranks l query consumed (⟨.tight, name⟩ :: rest) (⟨.tight, name'⟩ :: rest')
  | later {consumed : Nat} {name : Text} {steps others : List Step}
      (rest : Outranks l query (consumed + 1) steps others) :
      Outranks l query consumed (⟨.tight, name⟩ :: steps) (⟨.tight, name⟩ :: others)

/-- Behind its first pick a least derivation is least. -/
theorem LeastDerivation.tail (least : l.LeastDerivation query i consumed (pick :: picks) found)
    (allowed : pick.Allowed consumed query.length)
    (follow : l.follow? query i pick = some child) :
    l.LeastDerivation query child pick.anchor picks found := by
  obtain ⟨derives, before⟩ := least
  constructor
  · cases derives with
    | step _ follow' rest =>
      obtain rfl := Option.some.inj (follow.symm.trans follow')
      exact rest
  · intro others target derives'
    obtain same | behind := before _ _ (.step allowed follow derives')
    · exact .inl (List.cons_inj_right pick |>.1 same)
    · rw [List.lex_cons_iff] at behind
      exact .inr behind

/-- The first pick of a least derivation comes before that of any other derivation. -/
theorem LeastDerivation.head (least : l.LeastDerivation query i consumed (pick :: picks) found)
    (derives : l.Derives query i consumed (other :: others) matching) :
    other = pick ∨ pick.Before other := by
  obtain same | behind := least.2 _ _ derives
  · exact .inl (List.cons.inj same).1
  · cases behind with
    | cons _ => exact .inl rfl
    | rel before => exact .inr before

/-- Where a least derivation goes on by a loose pick, no other derivation parts from it by a tight
one. -/
theorem LeastDerivation.loose_of_loose {before after : List Pick}
    (least : l.LeastDerivation query i consumed (before ++ pick :: after) found)
    (loose : pick.binding = .loose)
    (derives : l.Derives query i consumed (before ++ other :: others) matching) :
    other.binding = .loose := by
  induction before generalizing i consumed with
  | nil =>
    obtain rfl | ahead := least.head derives
    · exact loose
    · cases tight : other.binding with
      | loose => rfl
      | tight => simp [Pick.Before, loose, tight, Binding.index] at ahead
  | cons first before ih =>
    cases derives with
    | step allowed follow rest => exact ih (least.tail allowed follow) rest

/-- Where some tight way goes on to the end of a query, the least derivation goes on tightly too,
or else it leaves this way for a child that is tried earlier. The induction is on the derivation
along the tight way. -/
theorem LeastDerivation.tight_or_outranks {ways : List (List Step)}
    {way steps tightSteps : List Step} (h : l.tree.Charted ways) (hi : ways[i]? = some way)
    (least : l.LeastDerivation query i consumed picks found)
    (derives : l.Derives query i consumed others matching)
    (tight : ∀ q ∈ others, q.binding = .tight)
    (hf : ways[found]? = some (way ++ steps)) (hm : ways[matching]? = some (way ++ tightSteps)) :
    (∀ s ∈ steps, s.binding = .tight) ∨ l.Outranks query consumed steps tightSteps := by
  induction derives generalizing way picks steps tightSteps with
  | done =>
    obtain ⟨-, rfl⟩ := least.1.eq_nil
    have nothing : steps = [] := by simpa using hi.symm.trans hf
    left
    simp [nothing]
  | @step node next matching consumed other others allowed follow rest ih =>
    have unfinished : consumed < query.length :=
      Nat.lt_of_lt_of_le allowed.consumed_lt allowed.anchor_le
    obtain ⟨pick, picks, child, rfl, allowed', follow', rest'⟩ := least.1.cases_pick unfinished
    obtain ⟨step, hc, takes⟩ := exists_takes_of_follow? h hi follow'
    obtain ⟨step', hc', takes'⟩ := exists_takes_of_follow? h hi follow
    obtain ⟨below, hf', -⟩ := rest'.exists_matches h hc
    obtain ⟨below', hm', -⟩ := rest.exists_matches h hc'
    obtain rfl : steps = step :: below := by simpa using hf.symm.trans hf'
    obtain rfl : tightSteps = step' :: below' := by simpa using hm.symm.trans hm'
    have tightPick : other.binding = .tight := tight other (.head _)
    have tightRest : ∀ q ∈ others, q.binding = .tight := fun q hq => tight q (.tail _ hq)
    have first : pick.binding = .tight ∧ pick.anchor = other.anchor ∧
        (child = next ∨ pick.choice.rank < other.choice.rank) := by
      obtain rfl | ahead := least.head (.step allowed follow rest)
      · exact ⟨tightPick, rfl, .inl (Option.some.inj (follow'.symm.trans follow))⟩
      · obtain ⟨binding, anchor, earlier⟩ := ahead.of_tight tightPick allowed' allowed
        exact ⟨binding, anchor, .inr earlier⟩
    obtain ⟨binding, anchor, order⟩ := first
    have anchor' : other.anchor = consumed + 1 := by
      simp only [Pick.Allowed, tightPick] at allowed
      exact allowed.1
    obtain ⟨stepBinding, name⟩ := step
    obtain ⟨stepBinding', name'⟩ := step'
    obtain rfl : stepBinding = .tight := takes.binding_eq.trans binding
    obtain rfl : stepBinding' = .tight := takes'.binding_eq.trans tightPick
    by_cases same : child = next
    · subst same
      obtain rfl : name = name' := by simpa using hc.symm.trans hc'
      have leastBelow := least.tail allowed' follow'
      rw [anchor] at leastBelow
      obtain allTight | outranked := ih hc leastBelow tightRest hf' hm'
      · exact .inl (List.forall_mem_cons.2 ⟨rfl, allTight⟩)
      · rw [anchor'] at outranked
        exact .inr (.later outranked)
    · have part : name ≠ name' := by
        rintro rfl
        exact same (h.index_unique hc hc')
      obtain ⟨segment, taken, accepts⟩ := takes.accepts
      obtain ⟨segment', taken', accepts'⟩ := takes'.accepts
      rw [anchor, anchor', Nat.add_sub_cancel] at taken
      rw [anchor', Nat.add_sub_cancel] at taken'
      obtain rfl := Option.some.inj (taken.symm.trans taken')
      rw [anchor, anchor'] at accepts
      rw [anchor'] at accepts'
      exact .inr (.here taken accepts accepts' (order.resolve_left same) part)

end Lookup

namespace Session

/-- If the way to some node is tight and matches a query, then the query resolves to a node whose
way is tight as well, or whose way leaves the first one tightly for a child that is tried earlier.
In no case does it go on loosely where it could go on tightly and match the query. -/
theorem tight_unless_outranked (hierarchy : Hierarchy) (loader : Loader)
    (operations : List Operation) {raw : Text} {key : Key} (read : Key.parse raw = .ok key) :
    let s := (start hierarchy loader).run operations
    let l := s.store.lookup s.objects
    ∀ (matching : NodeIndex) (picks : List Pick),
      l.Derives key.segments Tree.root 0 picks matching →
      (∀ step ∈ l.tree.stepsAt matching, step.binding = .tight) →
      ∃ found selected, l.find key = some found ∧
        s.store.resolve s.objects raw = .ok ((l.tree.node found).data.bind Value.ofStored?) ∧
        l.Derives key.segments Tree.root 0 selected found ∧
        ((∀ step ∈ l.tree.stepsAt found, step.binding = .tight) ∨
          l.Outranks key.segments 0 (l.tree.stepsAt found) (l.tree.stepsAt matching)) ∧
        ∀ before pick after, selected = before ++ pick :: after → pick.binding = .loose →
          ∀ other rest target,
            l.Derives key.segments Tree.root 0 (before ++ other :: rest) target →
              other.binding = .loose := by
  intro s l matching picks derives tight
  obtain ⟨ways, represents⟩ := (grown_run hierarchy loader operations).represents
  have chart : l.tree.Charted ways := represents.toCharted
  obtain ⟨tightSteps, hm, matched⟩ := derives.exists_matches chart chart.root_way
  rw [List.nil_append] at hm
  rw [chart.stepsAt_eq hm] at tight ⊢
  have tightPicks : ∀ pick ∈ picks, pick.binding = .tight := by
    intro pick hp
    have bound : pick.binding ∈ tightSteps.map (·.binding) :=
      matched.map_binding ▸ List.mem_map_of_mem hp
    obtain ⟨step, hs, same⟩ := List.mem_map.1 bound
    exact same ▸ tight step hs
  obtain ⟨found, arrived⟩ := Lookup.exists_find_of_derives derives
  obtain ⟨selected, least⟩ := Lookup.exists_least_of_find arrived
  obtain ⟨steps, hf, -⟩ := least.1.exists_matches chart chart.root_way
  rw [List.nil_append] at hf
  refine ⟨found, selected, arrived, ?_, least.1, ?_, ?_⟩
  · have value : s.store.find s.objects key = (l.tree.node found).data.bind Value.ofStored? := by
      rw [Store.find, arrived]
      rfl
    rw [Store.resolve, read, ← value]
    rfl
  · rw [chart.stepsAt_eq hf]
    exact least.tight_or_outranks chart chart.root_way derives tightPicks hf hm
  · rintro before pick after rfl loose other rest target derives'
    exact least.loose_of_loose loose derives'

/-- A type is tried before `?`, and the loose step below a tight one is of no avail. -/
theorem tight_unless_outranked_by_type :
    let operations : List Operation :=
      [.insert "*c".toList (.single ['0']), .insert "?*c".toList (.single ['1']),
        .insert "?.b.c".toList (.single ['2']), .insert "Panel.b.?".toList (.single ['3']),
        .create "Panel".toList, .register "a".toList 0]
    let s := (start TypeTable.empty ⟨.standard, ⟨∅, []⟩⟩).run operations
    let l := s.store.lookup s.objects
    ∃ found, s.store.resolve s.objects "a.b.c".toList =
        .ok ((l.tree.node found).data.bind Value.ofStored?) ∧
      ((∀ step ∈ l.tree.stepsAt found, step.binding = .tight) ∨
        l.Outranks ["a".toList, "b".toList, "c".toList] 0 (l.tree.stepsAt found)
          (l.tree.stepsAt 5)) := by
  intro operations s l
  have read := Key.parse_text ⟨"a.b.c".toList, by decide +kernel, by decide +kernel⟩
  obtain ⟨found, -, -, value, -, tight, -⟩ :=
    tight_unless_outranked TypeTable.empty ⟨.standard, ⟨∅, []⟩⟩ operations read 5
      [⟨.tight, 1, .single⟩, ⟨.tight, 2, .exact⟩, ⟨.tight, 3, .exact⟩] (by decide +kernel)
      (by decide +kernel)
  exact ⟨found, value, tight⟩

/-- A tight pattern does not win against a loose one that parts from it at an earlier choice: below
`a` only a loose step leads on, and `?` is not tried any more. -/
theorem loose_below_earlier_choice :
    let s := (start TypeTable.empty ⟨.standard, ⟨∅, []⟩⟩).run
      [.insert "a*c".toList (.single "loose".toList),
        .insert "?.b.c".toList (.single "tight".toList)]
    let l := s.store.lookup s.objects
    let key : Key := ⟨"a.b.c".toList, by decide +kernel, by decide +kernel⟩
    l.Derives key.segments Tree.root 0
        [⟨.tight, 1, .single⟩, ⟨.tight, 2, .exact⟩, ⟨.tight, 3, .exact⟩] 5 ∧
      (∀ step ∈ l.tree.stepsAt 5, step.binding = .tight) ∧
      l.find key = some 2 ∧ ¬ (∀ step ∈ l.tree.stepsAt 2, step.binding = .tight) ∧
      s.store.resolve s.objects key.text = .ok (some (.single "loose".toList)) := by
  intro s l key
  refine ⟨?_, ?_, ?_, ?_, ?_⟩ <;> decide +kernel

end Session

end ResourceLookup
