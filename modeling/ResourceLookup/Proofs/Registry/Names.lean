import ResourceLookup.Proofs.Lookup.Literal
import ResourceLookup.Proofs.Registry.Pruning

/-!
# Registered names are keys

Whatever an object is registered under is a path of valid names. Such a path is a literal key as
it stands, so that reading it never fails and never changes it.
-/

namespace ResourceLookup

theorem Key.hasDouble_of_not_mem {c : Char} {t : Text} (h : c ∉ t) : Key.hasDouble c t = false := by
  induction t with
  | nil => rfl
  | cons a t ih =>
    refine Key.hasDouble_cons.2 ⟨?_, ih fun later => h (List.mem_cons_of_mem _ later)⟩
    rintro ⟨rfl, -⟩
    exact h List.mem_cons_self

/-- A valid name can stand as a segment of a key. -/
theorem isSegment_of_isValidName {name : Text} (h : isValidName name = true) : IsSegment name := by
  simp only [isValidName, Bool.and_eq_true, Bool.not_eq_true', List.any_eq_false,
    List.isEmpty_eq_false_iff, Bool.or_eq_true, beq_iff_eq, not_or] at h
  obtain ⟨⟨⟨⟨nonempty, -⟩, special⟩, blank⟩, -⟩ := h
  refine ⟨nonempty, ?_, Key.hasDouble_of_not_mem fun question => (special _ question).1.2 rfl⟩
  intro c hc
  exact ⟨isDelimiter_eq_false_iff.2 (special c hc).1.1, by simpa using blank c hc⟩

/-- A segment has no tight delimiter to be cut at. -/
theorem IsSegment.splitOn_eq {segment : Text} (h : IsSegment segment) :
    segment.splitOn '.' = [segment] := by
  apply List.splitOn_eq_singleton
  intro dot
  simpa [isDelimiter] using (h.plain _ dot).1

theorem isValidPath_iff {path : Text} :
    isValidPath path = true ↔ ∀ name ∈ path.splitOn '.', isValidName name = true := by
  rw [isValidPath, List.all_eq_true]

/-- A path of valid names is a key, and it is in normal form. -/
theorem exists_key_of_isValidPath {path : Text} (h : isValidPath path = true) :
    ∃ key : Key, Key.parse path = .ok key ∧ key.text = path := by
  have names := isValidPath_iff.1 h
  let steps : List Step := (path.splitOn '.').map (⟨.tight, ·⟩)
  have nonempty : steps ≠ [] := by simp [steps]
  have proper : ∀ s ∈ steps, IsSegment s.segment := by
    intro s hs
    obtain ⟨name, hn, rfl⟩ := List.mem_map.1 hs
    exact isSegment_of_isValidName (names name hn)
  have tight : ∀ s ∈ steps, s.binding = .tight := by
    intro s hs
    obtain ⟨name, -, rfl⟩ := List.mem_map.1 hs
    rfl
  have segments : steps.map (·.segment) = path.splitOn '.' := by
    rw [List.map_map]
    exact List.map_id _
  have text : (Key.ofSteps steps nonempty proper).text = path := by
    rw [Key.text_ofSteps, Step.pathText_of_tight tight, segments]
    exact List.intercalate_splitOn _
  exact ⟨.ofSteps steps nonempty proper, text ▸ Key.parse_text _, text⟩

theorem isValidPath_of_isValidName {name : Text} (h : isValidName name = true) :
    isValidPath name = true := by
  rw [isValidPath_iff, (isSegment_of_isValidName h).splitOn_eq]
  exact List.forall_mem_singleton.2 h

/-- A valid name below a path makes a path. -/
theorem isValidPath_below {path name : Text} (hp : isValidPath path = true)
    (hn : isValidName name = true) : isValidPath (path ++ '.' :: name) = true := by
  have single := (isSegment_of_isValidName hn).splitOn_eq
  rw [isValidPath_iff] at hp ⊢
  rw [List.splitOn_append_cons_self, single, List.forall_mem_append]
  exact ⟨hp, List.forall_mem_singleton.2 hn⟩

namespace Registry

/-- Every name on record is a path of valid names. -/
def HasValidNames (r : Registry) : Prop :=
  ∀ (o : ObjectId) (name : Text), r.names[o]? = some name → isValidPath name = true

variable {r : Registry} {alive : ObjectId → Bool} {o : ObjectId} {name typeName : Text}

theorem hasValidNames_empty : empty.HasValidNames := by
  intro o name h
  simp [empty] at h

namespace HasValidNames

theorem prune (h : r.HasValidNames) : (r.prune alive).HasValidNames := by
  intro o name named
  rw [getElem?_prune_names] at named
  exact h o name (getElem?_names_of_nameOf? named)

theorem record (h : r.HasValidNames) (valid : isValidPath name = true) :
    (r.record alive name o typeName).HasValidNames := by
  intro p found named
  rw [getElem?_record_names] at named
  split at named
  · cases named
    exact valid
  · exact h p found (getElem?_names_of_nameOf? named)

theorem forget (h : r.HasValidNames) : (r.forget o).HasValidNames := by
  intro p found named
  rw [getElem?_forget_names] at named
  split at named
  · cases named
  · exact h p found named

end HasValidNames

end Registry

end ResourceLookup
