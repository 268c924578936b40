import Mathlib.Data.List.Nodup
import ResourceLookup.Proofs.Types.Ancestry

/-!
# Names listed twice

An interface is put into an ancestry unless its name is there already; a superclass always is. So
the names in an ancestry are not distinct in general. `count_ancestry` counts how often a name is
listed: once for its place on the chain of superclasses, and once more as an interface if a type
before this place has it for one. Hence a name is listed twice at most, and it is listed twice
exactly if it is a superclass that a type below it already declares as an interface.
-/

namespace ResourceLookup.TypeTable

/-- The interfaces of the types on a chain that come before a name, or of all of them if the name is
not on the chain. -/
def interfacesBefore (table : TypeTable) (chain : List Text) (name : Text) : List Text :=
  (chain.takeWhile (· != name)).flatMap table.interfaces

variable {table : TypeTable} {chain before behind : List Text} {type candidate : Text}

theorem mem_foldl_addNew {names more : List Text} :
    candidate ∈ more.foldl addNew names ↔ candidate ∈ names ∨ candidate ∈ more := by
  rw [← List.mem_eraseDups, eraseDups_foldl_addNew, List.mem_eraseDups, List.mem_append]

/-- Interfaces that are listed already are not listed again. -/
theorem count_foldl_addNew (names more : List Text) (candidate : Text) :
    (more.foldl addNew names).count candidate =
      names.count candidate + if candidate ∈ more ∧ candidate ∉ names then 1 else 0 := by
  induction more generalizing names with
  | nil => simp
  | cons name more ih =>
    rw [List.foldl_cons, ih, addNew]
    split
    · rename_i listed
      have listed : name ∈ names := by simpa using listed
      by_cases same : candidate = name
      · simp [same, listed]
      · simp [same]
    · rename_i new
      have new : name ∉ names := by simpa using new
      by_cases same : candidate = name
      · simp [same, new]
      · have other : name ≠ candidate := Ne.symm same
        simp [same, other]

@[simp] theorem interfacesBefore_cons_self (table : TypeTable) (chain : List Text) (name : Text) :
    table.interfacesBefore (name :: chain) name = [] := by
  simp [interfacesBefore]

theorem interfacesBefore_cons_of_ne (h : type ≠ candidate) (chain : List Text) :
    table.interfacesBefore (type :: chain) candidate =
      table.interfaces type ++ table.interfacesBefore chain candidate := by
  simp [interfacesBefore, h]

/-- A superclass is listed at its place on the chain whether it is listed already or not. -/
theorem count_foldl_interfaces (table : TypeTable) (chain names : List Text) (candidate : Text) :
    (chain.foldl (fun names type => (table.interfaces type).foldl addNew (names ++ [type]))
      names).count candidate =
    names.count candidate + chain.count candidate +
      if candidate ∈ table.interfacesBefore chain candidate ∧ candidate ∉ names then 1 else 0 := by
  induction chain generalizing names with
  | nil => simp [interfacesBefore]
  | cons type chain ih =>
    rw [List.foldl_cons, ih, count_foldl_addNew]
    simp only [mem_foldl_addNew, List.count_append, List.count_cons, List.count_nil]
    by_cases same : type = candidate
    · subst same
      simp only [BEq.rfl, if_true, List.mem_append, List.mem_cons, true_or, or_true,
        not_true_eq_false, and_false, Nat.add_zero, interfacesBefore_cons_self, List.not_mem_nil,
        false_and, if_false]
      omega
    · have other : candidate ≠ type := Ne.symm same
      simp only [interfacesBefore_cons_of_ne same, List.mem_append, List.mem_singleton, other]
      grind

/-- A name is listed for its place on the chain, and as an interface if a type before this place has
it for one. -/
theorem count_ancestry (table : TypeTable) (name candidate : Text) :
    (table.ancestry name).count candidate = (table.lineage name).count candidate +
      if candidate ∈ table.interfacesBefore (table.lineage name) candidate then 1 else 0 := by
  rw [ancestry, count_foldl_interfaces]
  simp

theorem mem_interfacesBefore_iff (fresh : candidate ∉ before) :
    candidate ∈ table.interfacesBefore (before ++ candidate :: behind) candidate ↔
      ∃ type ∈ before, candidate ∈ table.interfaces type := by
  have passed : ∀ type ∈ before, (type != candidate) = true := by
    intro type listed
    have other : type ≠ candidate := fun same => fresh (same ▸ listed)
    simpa using other
  rw [interfacesBefore, List.takeWhile_append_of_pos passed]
  simp

/-- A name is listed twice if it is a superclass that is an interface of a type before it. -/
theorem count_ancestry_eq_two_iff (table : TypeTable) (name candidate : Text) :
    (table.ancestry name).count candidate = 2 ↔
      ∃ before behind, table.lineage name = before ++ candidate :: behind ∧
        ∃ type ∈ before, candidate ∈ table.interfaces type := by
  have nodup := (table.lineage_lineage name).nodup
  rw [count_ancestry]
  constructor
  · intro twice
    have once := List.nodup_iff_count_le_one.1 nodup candidate
    have listed : candidate ∈ table.lineage name := by
      rw [← List.count_pos_iff]
      split at twice <;> omega
    have above : candidate ∈ table.interfacesBefore (table.lineage name) candidate := by
      by_contra other
      rw [if_neg other] at twice
      omega
    obtain ⟨before, behind, cut, fresh⟩ := List.eq_append_cons_of_mem listed
    rw [cut] at above
    exact ⟨before, behind, cut, (mem_interfacesBefore_iff fresh).1 above⟩
  · rintro ⟨before, behind, cut, above⟩
    rw [cut] at nodup ⊢
    have fresh : candidate ∉ before := by
      intro again
      exact (List.nodup_append.1 nodup).2.2 candidate again candidate List.mem_cons_self rfl
    rw [List.count_eq_one_of_mem nodup (by simp), if_pos ((mem_interfacesBefore_iff fresh).2 above)]

theorem count_ancestry_le_two (table : TypeTable) (name candidate : Text) :
    (table.ancestry name).count candidate ≤ 2 := by
  have once := List.nodup_iff_count_le_one.1 (table.lineage_lineage name).nodup candidate
  rw [count_ancestry]
  split <;> omega

/-- The names in an ancestry are distinct as long as no superclass on the chain is also an interface
of a type before it. Every such superclass is listed twice, once for each, and no name is listed
more often. -/
theorem ancestry_distinct_unless_interface_above (table : TypeTable) (name : Text) :
    ∃ chain, table.Lineage name chain ∧
      (∀ candidate, (table.ancestry name).count candidate ≤ 2 ∧
        ((table.ancestry name).count candidate = 2 ↔
          ∃ before behind, chain = before ++ candidate :: behind ∧
            ∃ type ∈ before, candidate ∈ table.interfaces type)) ∧
      ((table.ancestry name).Nodup ↔ ∀ before candidate behind,
        chain = before ++ candidate :: behind → ∀ type ∈ before,
          candidate ∉ table.interfaces type) := by
  refine ⟨table.lineage name, table.lineage_lineage name, fun candidate =>
    ⟨table.count_ancestry_le_two name candidate, table.count_ancestry_eq_two_iff name candidate⟩,
    ?_⟩
  rw [List.nodup_iff_count_le_one]
  constructor
  · intro once before candidate behind cut type listed above
    have twice := (table.count_ancestry_eq_two_iff name candidate).2
      ⟨before, behind, cut, type, listed, above⟩
    have := once candidate
    omega
  · intro distinct candidate
    have most := table.count_ancestry_le_two name candidate
    have notTwice : (table.ancestry name).count candidate ≠ 2 := by
      intro twice
      obtain ⟨before, behind, cut, type, listed, above⟩ :=
        (table.count_ancestry_eq_two_iff name candidate).1 twice
      exact distinct before candidate behind cut type listed above
    omega

/-- A type whose superclass is one of its interfaces has it twice in its ancestry. -/
theorem superclass_listed_twice :
    let table := TypeTable.empty.declare ['A'] (some ['B']) [['B']]
    table.ancestry ['A'] = [['A'], ['B'], ['B']] ∧ ¬ (table.ancestry ['A']).Nodup := by
  intro table
  have listed : table.ancestry ['A'] = [['A'], ['B'], ['B']] := by decide +kernel
  rw [listed]
  exact ⟨rfl, by decide⟩

end ResourceLookup.TypeTable
