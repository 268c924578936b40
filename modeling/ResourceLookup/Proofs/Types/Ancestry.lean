import ResourceLookup.Proofs.Lookup.Choice
import ResourceLookup.TypeTable

/-!
# The ancestry of a type

However types are declared, the superclasses of a type form a finite chain, which ends at a type
without superclass or just before the first type that would be repeated. The ancestry of the type is
this chain with the interfaces of each type put behind it. A name may be listed again further down,
which changes nothing for a search: the first place of each name is where the chain and the
interfaces have it, and `ancestry_follows_lineage` concludes that the nearest child of a type is
told from the declarations alone.
-/

namespace ResourceLookup

/-- What is found in a list depends on the first place of each item. -/
theorem findSome?_eq_of_eraseDups_eq {α β : Type} [BEq α] [LawfulBEq α] {xs ys : List α}
    (same : xs.eraseDups = ys.eraseDups) (f : α → Option β) : xs.findSome? f = ys.findSome? f := by
  rw [← findSome?_eraseDups f xs, same, findSome?_eraseDups]

/-- What is put behind a list is repeated or not according to the items of the list. -/
theorem eraseDups_append_congr {α : Type} [BEq α] [LawfulBEq α] {xs ys : List α}
    (same : xs.eraseDups = ys.eraseDups) (more : List α) :
    (xs ++ more).eraseDups = (ys ++ more).eraseDups := by
  have elem (a : α) : xs.elem a = ys.elem a := by
    rw [Bool.eq_iff_iff, List.elem_iff, List.elem_iff, ← List.mem_eraseDups, same,
      List.mem_eraseDups]
  rw [List.eraseDups_append, List.eraseDups_append, same]
  simp only [List.removeAll, elem]

namespace TypeTable

/-- The superclass of the superclass of a type, and so on, the given number of times. -/
def upwards (table : TypeTable) (name : Text) : Nat → Option Text
  | 0 => some name
  | steps + 1 => (table.upwards name steps).bind table.superclass

/-- The chain of superclasses from a type upwards. No type is repeated on it, and the next one does
not exist or would be repeated. -/
structure Lineage (table : TypeTable) (name : Text) (chain : List Text) : Prop where
  upwards : ∀ i < chain.length, chain[i]? = table.upwards name i
  nodup : chain.Nodup
  ends : ∀ type, table.upwards name chain.length = some type → type ∈ chain

/-- The types of a chain, each with its interfaces behind it. -/
def withInterfaces (table : TypeTable) (chain : List Text) : List Text :=
  chain.flatMap fun type => type :: table.interfaces type

variable {table : TypeTable} {seen : List Text} {fuel : Nat} {name : Text} {chain : List Text}

/-- The same way, seen from its first step. -/
theorem upwards_succ (table : TypeTable) (name : Text) (steps : Nat) :
    table.upwards name (steps + 1) = (table.superclass name).bind (table.upwards · steps) := by
  induction steps with
  | zero => cases above : table.superclass name <;> simp [upwards, above]
  | succ steps ih =>
    rw [upwards, ih, Option.bind_assoc]
    rfl

namespace Lineage

theorem length_le_of_lineage {other : List Text} (h : table.Lineage name chain)
    (h' : table.Lineage name other) : chain.length ≤ other.length := by
  apply Nat.le_of_not_lt
  intro longer
  -- The type behind the shorter chain is on it, and so it is twice on the longer one.
  obtain ⟨i, short, listed⟩ := List.mem_iff_getElem.1 <|
    h'.ends chain[other.length] ((h.upwards _ longer).symm.trans (List.getElem?_eq_getElem longer))
  have twice : chain[i]? = chain[other.length]? := by
    rw [h.upwards i (by omega), ← h'.upwards i short, List.getElem?_eq_getElem short, listed,
      List.getElem?_eq_getElem longer]
  have same : i = other.length := (List.getElem?_inj (by omega) h.nodup).1 twice
  omega

theorem unique {other : List Text} (h : table.Lineage name chain)
    (h' : table.Lineage name other) : chain = other := by
  have length : chain.length = other.length :=
    Nat.le_antisymm (h.length_le_of_lineage h') (h'.length_le_of_lineage h)
  apply List.ext_getElem?
  intro i
  by_cases within : i < chain.length
  · rw [h.upwards i within, h'.upwards i (length ▸ within)]
  · rw [List.getElem?_eq_none (by omega), List.getElem?_eq_none (by omega)]

theorem exists_eq_cons (h : table.Lineage name chain) : ∃ rest, chain = name :: rest := by
  have nonempty : 0 < chain.length := by
    apply Nat.pos_of_ne_zero
    intro empty
    have mem := h.ends name (by rw [empty, TypeTable.upwards])
    exact absurd (List.length_pos_of_mem mem) (by omega)
  rw [← List.head?_eq_some_iff, List.head?_eq_getElem?, h.upwards 0 nonempty, TypeTable.upwards]

end Lineage

theorem climb_of_mem (h : name ∈ seen) (fuel : Nat) : table.climb seen fuel name = [] := by
  cases fuel with
  | zero => rfl
  | succ fuel => simp [climb, h]

theorem climb_succ (h : name ∉ seen) (fuel : Nat) :
    table.climb seen (fuel + 1) name =
      name :: (table.superclass name).elim [] (table.climb (name :: seen) fuel) := by
  cases above : table.superclass name <;> simp [climb, h, above]

theorem getElem?_climb (i : Nat) (within : i < (table.climb seen fuel name).length) :
    (table.climb seen fuel name)[i]? = table.upwards name i := by
  induction fuel generalizing seen name i with
  | zero => simp [climb] at within
  | succ fuel ih =>
    by_cases mem : name ∈ seen
    · simp [climb_of_mem mem] at within
    · rw [climb_succ mem] at within ⊢
      cases i with
      | zero => rfl
      | succ i =>
        rw [List.getElem?_cons_succ, upwards_succ]
        cases above : table.superclass name with
        | none => simp [above] at within
        | some parent => exact ih i (by simpa [above] using within)

theorem nodup_climb (table : TypeTable) (seen : List Text) (fuel : Nat) (name : Text) :
    (table.climb seen fuel name).Nodup ∧ ∀ type ∈ table.climb seen fuel name, type ∉ seen := by
  induction fuel generalizing seen name with
  | zero => simp [climb]
  | succ fuel ih =>
    by_cases mem : name ∈ seen
    · simp [climb_of_mem mem]
    · rw [climb_succ mem]
      cases table.superclass name with
      | none => simpa using mem
      | some parent =>
        obtain ⟨nodup, fresh⟩ := ih (name :: seen) parent
        have others (type : Text) (h : type ∈ table.climb (name :: seen) fuel parent) :
            type ≠ name ∧ type ∉ seen := by
          simpa using fresh type h
        refine ⟨List.nodup_cons.2 ⟨fun again => (others name again).1 rfl, nodup⟩, ?_⟩
        exact List.forall_mem_cons.2 ⟨mem, fun type h => (others type h).2⟩

/-- A type with a superclass is declared. -/
theorem mem_keys_of_superclass {parent : Text} (h : table.superclass name = some parent) :
    name ∈ table.declarations.keys := by
  obtain ⟨declaration, declared, -⟩ := Option.bind_eq_some_iff.1 h
  rw [Std.ExtTreeMap.mem_keys, Std.ExtTreeMap.mem_iff_isSome_getElem?, declared]
  rfl

/-- Climbing ends by itself if it may take one more type than are declared: all the types seen on
the way have a superclass and are declared, and none of them is seen twice. -/
theorem mem_of_upwards_climb (nodup : seen.Nodup) (declared : seen ⊆ table.declarations.keys)
    (enough : table.declarations.size < fuel + seen.length) {type : Text}
    (next : table.upwards name (table.climb seen fuel name).length = some type) :
    type ∈ table.climb seen fuel name ∨ type ∈ seen := by
  induction fuel generalizing seen name with
  | zero =>
    have few : seen.length ≤ table.declarations.keys.length := nodup.length_le_of_subset declared
    rw [Std.ExtTreeMap.length_keys] at few
    omega
  | succ fuel ih =>
    by_cases mem : name ∈ seen
    · rw [climb_of_mem mem] at next ⊢
      obtain rfl : name = type := Option.some.inj next
      exact .inr mem
    · rw [climb_succ mem, List.length_cons, upwards_succ] at next
      rw [climb_succ mem]
      cases above : table.superclass name with
      | none => simp [above] at next
      | some parent =>
        rw [above] at next
        have listed := ih (List.nodup_cons.2 ⟨mem, nodup⟩)
          (List.cons_subset.2 ⟨mem_keys_of_superclass above, declared⟩)
          (by rw [List.length_cons]; omega) next
        simp only [Option.elim_some, List.mem_cons] at listed ⊢
        grind

theorem lineage_climb (enough : table.declarations.size < fuel) (name : Text) :
    table.Lineage name (table.climb [] fuel name) where
  upwards := getElem?_climb
  nodup := (nodup_climb table [] fuel name).1
  ends type next := by
    simpa using mem_of_upwards_climb List.nodup_nil (List.nil_subset _) (by simpa using enough) next

/-- A name is put at the end where it stands first. -/
theorem eraseDups_addNew (names : List Text) (name : Text) :
    (addNew names name).eraseDups = (names ++ [name]).eraseDups := by
  rw [addNew]
  split
  · rename_i listed
    have nothing : [name].removeAll names = [] := by
      simpa [List.removeAll] using listed
    rw [List.eraseDups_append, nothing]
    simp
  · rfl

theorem eraseDups_foldl_addNew (names more : List Text) :
    (more.foldl addNew names).eraseDups = (names ++ more).eraseDups := by
  induction more generalizing names with
  | nil => simp
  | cons name more ih =>
    rw [List.foldl_cons, ih, eraseDups_append_congr (eraseDups_addNew names name),
      List.append_assoc, List.singleton_append]

theorem eraseDups_foldl_interfaces (table : TypeTable) (chain names : List Text) :
    (chain.foldl (fun names type => (table.interfaces type).foldl addNew (names ++ [type]))
      names).eraseDups = (names ++ table.withInterfaces chain).eraseDups := by
  induction chain generalizing names with
  | nil => simp [withInterfaces]
  | cons type chain ih =>
    rw [List.foldl_cons, ih, eraseDups_append_congr (eraseDups_foldl_addNew _ _)]
    simp [withInterfaces]

/-- In an ancestry every name stands first where the chain and the interfaces have it first. -/
theorem eraseDups_ancestry (table : TypeTable) (name : Text) :
    (table.ancestry name).eraseDups = (table.withInterfaces (table.lineage name)).eraseDups :=
  table.eraseDups_foldl_interfaces (table.lineage name) []

theorem lineage_lineage (table : TypeTable) (name : Text) :
    table.Lineage name (table.lineage name) := lineage_climb (Nat.lt_succ_self _) name

/-- The nearest child of a type is the first one along the chain and the interfaces. -/
theorem find?_eq_findSome?_withInterfaces (types : TypeIndex) (table : TypeTable) (name : Text) :
    types.find? table name =
      (table.withInterfaces (table.lineage name)).findSome? types.get? := by
  rw [TypeIndex.find?_eq_findSome?, List.findSome?_cons]
  cases own : types.get? name with
  | none => exact findSome?_eq_of_eraseDups_eq (table.eraseDups_ancestry name) types.get?
  | some child =>
    obtain ⟨rest, begins⟩ := (table.lineage_lineage name).exists_eq_cons
    simp [withInterfaces, begins, own]

/-- The superclasses of a type form exactly one chain, and climbing ends with it however many more
types it may take than are declared. The ancestry has exactly the types of the chain and their
interfaces, in the order in which these stand first on the way up, and the nearest child of the type
is that of the first one in this order which has a child. -/
theorem ancestry_follows_lineage (table : TypeTable) (name : Text) :
    ∃ chain, table.Lineage name chain ∧ (∀ other, table.Lineage name other → other = chain) ∧
      (∀ fuel, table.declarations.size < fuel → table.climb [] fuel name = chain) ∧
      (∀ candidate, candidate ∈ table.ancestry name ↔
        ∃ type ∈ chain, candidate = type ∨ candidate ∈ table.interfaces type) ∧
      (table.ancestry name).eraseDups = (table.withInterfaces chain).eraseDups ∧
      ∀ types : TypeIndex,
        (∀ child, types.find? table name = some child ↔ ∃ before candidate behind,
          table.withInterfaces chain = before ++ candidate :: behind ∧
            types.get? candidate = some child ∧ ∀ earlier ∈ before, types.get? earlier = none) ∧
        (types.find? table name = none ↔
          ∀ candidate ∈ table.ancestry name, types.get? candidate = none) := by
  have lineage := table.lineage_lineage name
  have ordered := table.eraseDups_ancestry name
  have same (candidate : Text) : candidate ∈ table.ancestry name ↔
      candidate ∈ table.withInterfaces (table.lineage name) := by
    rw [← List.mem_eraseDups, ordered, List.mem_eraseDups]
  refine ⟨table.lineage name, lineage, fun other h => h.unique lineage, ?_, ?_, ordered, ?_⟩
  · intro fuel enough
    exact (lineage_climb enough name).unique lineage
  · intro candidate
    rw [same]
    simp [withInterfaces]
  · intro types
    rw [find?_eq_findSome?_withInterfaces]
    refine ⟨fun child => List.findSome?_eq_some_iff, ?_⟩
    rw [List.findSome?_eq_none_iff]
    exact forall_congr' fun candidate => by rw [same]

/-- Two types are the superclass of each other, and the first one also has the second for an
interface. -/
theorem ancestry_follows_lineage_in_circle :
    let table := (TypeTable.empty.declare ['A'] (some ['B']) [['I'], ['B']]).declare ['B']
      (some ['A']) [['J'], ['I']]
    let types := (TypeIndex.empty.insert ['J'] 1).insert ['B'] 2
    table.declarations.size < 9 ∧ table.climb [] 9 ['A'] = [['A'], ['B']] ∧
      table.Lineage ['A'] [['A'], ['B']] ∧
      table.ancestry ['A'] = [['A'], ['I'], ['B'], ['B'], ['J']] ∧
      types.find? table ['A'] = some 2 := by
  intro table types
  have few : table.declarations.size < 9 := by decide +kernel
  have climbed : table.climb [] 9 ['A'] = [['A'], ['B']] := by decide +kernel
  obtain ⟨chain, lineage, -, ends, -, -, nearest⟩ := ancestry_follows_lineage table ['A']
  obtain rfl : chain = [['A'], ['B']] := (ends 9 few).symm.trans climbed
  refine ⟨few, climbed, lineage, by decide +kernel, ?_⟩
  apply ((nearest types).1 2).2
  exact ⟨[['A'], ['I']], ['B'], [['B'], ['J'], ['I']], by decide +kernel, by decide +kernel,
    by decide +kernel⟩

end TypeTable

end ResourceLookup
