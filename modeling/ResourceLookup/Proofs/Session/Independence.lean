import Mathlib.Data.List.Infix
import ResourceLookup.Proofs.Lookup.Simulation
import ResourceLookup.Proofs.Session.Run

/-!
# Independence of history

What a query resolves to depends on the contents of a store, on the hierarchy of types, and on the
types that the registry records along the query. How the contents came about leaves no trace.
-/

namespace ResourceLookup

namespace Tree

variable {t u : Tree} {ways others : List (List Step)} {i j child : NodeIndex} {way : List Step}

/-- Two nodes, each in its tree, at the end of the same way. -/
def SameWay (ways others : List (List Step)) (i j : NodeIndex) : Prop :=
  ∃ way, ways[i]? = some way ∧ others[j]? = some way

/-- Trees with the same ways have the same children at the end of each. -/
theorem Charted.rel_get? (h : Charted t ways) (h' : Charted u others)
    (members : ∀ way, way ∈ ways ↔ way ∈ others) (nodes : SameWay ways others i j) (b : Binding)
    (category : Category) (segment : Text)
    (proper : category = .singleMatch → segment = singleMatch) :
    Option.Rel (SameWay ways others) (((t.node i).children b).get? category segment)
      (((u.node j).children b).get? category segment) := by
  obtain ⟨way, hi, hj⟩ := nodes
  cases found : ((t.node i).children b).get? category segment with
  | some child =>
    obtain ⟨rule, hc⟩ := (h.get?_eq_some_iff hi proper).1 found
    obtain ⟨child', hc'⟩ := List.getElem?_of_mem ((members _).1 (List.mem_of_getElem? hc))
    rw [(h'.get?_eq_some_iff hj proper).2 ⟨rule, hc'⟩]
    exact .some ⟨_, hc, hc'⟩
  | none =>
    cases found' : ((u.node j).children b).get? category segment with
    | none => exact .none
    | some child' =>
      obtain ⟨rule, hc'⟩ := (h'.get?_eq_some_iff hj proper).1 found'
      obtain ⟨child, hc⟩ := List.getElem?_of_mem ((members _).2 (List.mem_of_getElem? hc'))
      rw [(h.get?_eq_some_iff hi proper).2 ⟨rule, hc⟩] at found
      cases found

end Tree

namespace Store

variable {s t : Store} {journal other : Journal}

/-- Stores with the same contents resolve a key to the same value. -/
theorem find_eq_of_contents_eq (hs : s.tree.Grown journal.writes) (ht : t.tree.Grown other.writes)
    (hierarchy : s.hierarchy = t.hierarchy) (same : journal.contents = other.contents)
    {objects objects' : Objects} {key : Key}
    (types : ∀ pre, pre ≠ [] → pre <+: key.segments →
      s.registry.typeAt? objects.isAlive (Lookup.path pre) =
        t.registry.typeAt? objects'.isAlive (Lookup.path pre)) :
    s.find objects key = t.find objects' key := by
  obtain ⟨ways, hs⟩ := hs.represents
  obtain ⟨others, ht⟩ := ht.represents
  have members (way : List Step) : way ∈ ways ↔ way ∈ others := by
    rw [hs.mem_iff, ht.mem_iff, Journal.exists_prefix_iff_of_contents_eq same]
  have alike : Lookup.Alike (Tree.SameWay ways others) (s.lookup objects) (t.lookup objects') :=
    ⟨hierarchy, ⟨[], hs.root_way, ht.root_way⟩,
      fun nodes b category segment proper =>
        hs.rel_get? ht.toCharted members nodes b category segment proper⟩
  have found := alike.rel_find types
  simp only [find]
  generalize (s.lookup objects).find key = node at found ⊢
  generalize (t.lookup objects').find key = node' at found ⊢
  cases found with
  | none => rfl
  | some sameWay =>
    obtain ⟨way, hi, hj⟩ := sameWay
    have data := Journal.lastWritten_eq_of_contents_eq same
      (hs.segments way (List.mem_of_getElem? hi))
    rw [← hs.data_eq hi, ← ht.data_eq hj] at data
    exact congrArg (Option.bind · Value.ofStored?) data

end Store

namespace Session

/-- Two runs that leave the same contents resolve a query alike if the registries record the same
types along it. -/
theorem resolve_eq_of_contents_eq (hierarchy : Hierarchy) (loader loader' : Loader)
    (operations operations' : List Operation)
    (same : ((start hierarchy loader).journal operations).contents =
      ((start hierarchy loader').journal operations').contents)
    {raw : Text} {key : Key} (read : Key.parse raw = .ok key)
    (types :
      let s := (start hierarchy loader).run operations
      let t := (start hierarchy loader').run operations'
      ∀ pre, pre ≠ [] → pre <+: key.segments →
        s.store.registry.typeAt? s.objects.isAlive (Lookup.path pre) =
          t.store.registry.typeAt? t.objects.isAlive (Lookup.path pre)) :
    let s := (start hierarchy loader).run operations
    let t := (start hierarchy loader').run operations'
    s.store.resolve s.objects raw = t.store.resolve t.objects raw := by
  intro s t
  have hierarchies : s.store.hierarchy = t.store.hierarchy :=
    (hierarchy_run (start hierarchy loader) operations).trans
      (hierarchy_run (start hierarchy loader') operations').symm
  have found := Store.find_eq_of_contents_eq (grown_run hierarchy loader operations)
    (grown_run hierarchy loader' operations') hierarchies same types
  rw [Store.resolve, Store.resolve, read]
  exact congrArg Except.ok found

/-- A value that is overwritten, a relative key, another order, and a registration beside the
query. -/
theorem resolve_eq_after_reordering :
    let loader : Loader := ⟨.standard, ⟨∅, []⟩⟩
    let s := (start TypeTable.empty loader).run
      [.insert "view.title".toList (.single ['0']), .insert "app*Panel.?".toList (.single ['1']),
        .insert "view.title".toList (.single ['2'])]
    let t := (start TypeTable.empty loader).run
      [.create "Window".toList, .register "view".toList 0,
        .insertRelative 0 "title".toList (.single ['2']),
        .insert "app*Panel.?".toList (.single ['1'])]
    s.store.resolve s.objects "app.x.Panel.y".toList =
      t.store.resolve t.objects "app.x.Panel.y".toList := by
  have read := Key.parse_text ⟨"app.x.Panel.y".toList, by decide +kernel, by decide +kernel⟩
  refine resolve_eq_of_contents_eq _ _ _ _ _ ?_ read ?_
  · rw [← Std.ExtTreeMap.toList_inj]
    decide +kernel
  · intro s t pre nonempty begins
    rw [← List.mem_inits] at begins
    clear nonempty read
    revert pre
    decide +kernel

end Session

end ResourceLookup
