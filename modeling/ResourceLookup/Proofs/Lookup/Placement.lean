import ResourceLookup.Proofs.Lookup.Pattern

/-!
# Placements

A pattern is placed in a query by giving each of its steps the place of a segment. There are many
ways to do so where steps are loose, and a search takes the earliest places first, without a look at
what comes later in the pattern. `Matches.of_earlier` says that nothing is lost by it where the
query has been used up before the pattern: the remaining steps can still be given their places.
-/

namespace ResourceLookup.Lookup

variable {l : Lookup} {query : List Text}

/-- A step with the given name suits a segment at the end of a path. `?` suits every segment, and a
name suits the segment that is equal to it. A type suits a segment if it is in the ancestry of the
type of the segment, to which this type itself belongs. -/
def Suits (l : Lookup) (path : List Text) (segment name : Text) : Prop :=
  match Category.ofSegment name with
  | .singleMatch => True
  | .byName => segment = name
  | .byType => ∃ type, l.typeOf? path segment = some type ∧
      name ∈ type :: l.hierarchy.ancestry type

/-- Steps stand at places of a query, which are counted from one and grow from step to step. A tight
step stands directly behind the one before it, the first one behind `last`, and the last step stands
at the end of the query. -/
def Placed (l : Lookup) (query : List Text) : Nat → List Step → List Nat → Prop
  | last, [], [] => last = query.length
  | last, step :: steps, place :: places =>
    last < place ∧ (step.binding = .tight → place = last + 1) ∧
      (∃ segment ∈ query[place - 1]?, l.Suits (query.take place) segment step.segment) ∧
      l.Placed query place steps places
  | _, _, _ => False

/-- A step suits a segment if it accepts the segment by some choice. -/
theorem suits_iff {path : List Text} {segment name : Text} :
    l.Suits path segment name ↔ ∃ choice, l.Accepts path segment name choice := by
  rw [Suits]
  constructor
  · intro suits
    cases category : Category.ofSegment name with
    | singleMatch => exact ⟨.single, Category.ofSegment_eq_singleMatch_iff.1 category⟩
    | byName =>
      have same : segment = name := by simpa [category] using suits
      exact ⟨.exact, same.symm⟩
    | byType => exact ⟨.byType, category, by simpa [category] using suits⟩
  · rintro ⟨choice, accepts⟩
    cases choice with
    | exact =>
      obtain rfl : name = segment := accepts
      cases category : Category.ofSegment name <;> simp [typeOf?, category]
    | byType => simpa [accepts.1] using accepts.2
    | single =>
      obtain rfl : name = singleMatch := accepts
      simp

instance (l : Lookup) (path : List Text) (segment name : Text) :
    Decidable (l.Suits path segment name) :=
  decidable_of_iff (∃ choice ∈ Choice.all, l.Accepts path segment name choice)
    (by simp [suits_iff, Choice.mem_all])

instance decidablePlaced (l : Lookup) (query : List Text) :
    (last : Nat) → (steps : List Step) → (places : List Nat) →
      Decidable (l.Placed query last steps places)
  | last, [], [] => inferInstanceAs (Decidable (last = query.length))
  | _, _ :: steps, place :: places =>
    have := decidablePlaced l query place steps places
    inferInstanceAs (Decidable (_ ∧ _ ∧ _ ∧ _))
  | _, [], _ :: _ => inferInstanceAs (Decidable False)
  | _, _ :: _, [] => inferInstanceAs (Decidable False)

/-- Steps can be placed in a query if they match it. -/
theorem exists_placed_iff {last : Nat} {steps : List Step} :
    (∃ places, l.Placed query last steps places) ↔
      ∃ picks, l.Matches query last picks steps query.length := by
  induction steps generalizing last with
  | nil =>
    constructor
    · rintro ⟨places, placed⟩
      cases places with
      | nil =>
        obtain rfl : last = query.length := placed
        exact ⟨[], .done⟩
      | cons place places => exact placed.elim
    · rintro ⟨picks, matched⟩
      exact ⟨[], matched.finish_eq_of_nil.symm⟩
  | cons step steps ih =>
    constructor
    · rintro ⟨places, placed⟩
      cases places with
      | nil => exact placed.elim
      | cons place places =>
        obtain ⟨less, tight, ⟨segment, taken, suits⟩, rest⟩ := placed
        obtain ⟨choice, accepts⟩ := suits_iff.1 suits
        obtain ⟨picks, rest⟩ := ih.1 ⟨places, rest⟩
        have within : place ≤ query.length := by
          have taken_lt := (List.getElem?_eq_some_iff.1 taken).1
          omega
        have allowed : (⟨step.binding, place, choice⟩ : Pick).Allowed last query.length := by
          cases binding : step.binding with
          | tight => exact ⟨tight binding, within⟩
          | loose => exact ⟨less, within⟩
        exact ⟨_ :: picks, .step allowed ⟨rfl, segment, taken, accepts⟩ rest⟩
    · rintro ⟨picks, matched⟩
      cases matched with
      | step allowed takes rest =>
        rename_i pick picks
        obtain ⟨binding, segment, taken, accepts⟩ := takes
        obtain ⟨places, rest⟩ := ih.2 ⟨picks, rest⟩
        refine ⟨pick.anchor :: places, allowed.consumed_lt, ?_,
          ⟨segment, taken, suits_iff.2 ⟨_, accepts⟩⟩, rest⟩
        intro tight
        simp only [Pick.Allowed, ← binding, tight] at allowed
        exact allowed.1

/-- What can be matched from a later place on can be matched from an earlier one, if from there
some beginning of the steps gets to the end of the query. The first loose step can stay where it
is, and the tight ones before it are where the beginning has them. The induction is on the
steps. -/
theorem Matches.of_earlier {steps begun : List Step} {picks others : List Pick}
    {earlier later : Nat} (le : earlier ≤ later)
    (whole : l.Matches query later picks steps query.length) (begins : begun <+: steps)
    (part : l.Matches query earlier others begun query.length) :
    ∃ picks', l.Matches query earlier picks' steps query.length := by
  induction steps generalizing begun picks others earlier later with
  | nil =>
    obtain rfl := List.prefix_nil.1 begins
    exact ⟨others, part⟩
  | cons step steps ih =>
    cases whole with
    | step allowed takes rest =>
      rename_i pick picks
      have more := allowed.consumed_lt
      have within := allowed.anchor_le
      obtain rfl | ⟨begun', rfl, begins'⟩ := List.prefix_cons_iff.1 begins
      · have finished := part.finish_eq_of_nil
        omega
      · cases part with
        | step allowed' takes' rest' =>
          rename_i pick' others
          cases binding : step.binding with
          | loose =>
            have loose : pick.binding = .loose := takes.binding_eq.symm.trans binding
            refine ⟨pick :: picks, .step ?_ takes rest⟩
            simp only [Pick.Allowed, loose]
            omega
          | tight =>
            have tight : pick.binding = .tight := takes.binding_eq.symm.trans binding
            have tight' : pick'.binding = .tight := takes'.binding_eq.symm.trans binding
            have next : pick'.anchor ≤ pick.anchor := by
              simp only [Pick.Allowed, tight] at allowed
              simp only [Pick.Allowed, tight'] at allowed'
              omega
            obtain ⟨picks', rest''⟩ := ih next rest begins' rest'
            exact ⟨pick' :: picks', .step allowed' takes' rest''⟩

end ResourceLookup.Lookup
