import ResourceLookup.Proofs.Lookup.Literal
import ResourceLookup.Proofs.Session.Run

/-!
# Reading back

A literal key that names a node resolves to what was last stored under it, by whichever operation.
No pattern, type or registration ever comes in between.
-/

namespace ResourceLookup

namespace Tree.Charted

variable {t : Tree} {ways : List (List Step)} {i : NodeIndex}

/-- A key names the node at the end of the way that it spells. -/
theorem findPath?_text_iff (h : Charted t ways) {key : Key} :
    t.findPath? key.text = some i ↔ ways[i]? = some key.steps := by
  rw [h.findPath?_iff, ← key.pathText_steps]
  constructor
  · rintro ⟨way, -, hi, same⟩
    have equal := Step.pathText_injective (h.segments way (List.mem_of_getElem? hi))
      key.isSegment_of_mem_steps same
    exact equal ▸ hi
  · intro hi
    exact ⟨_, key.steps_ne_nil, hi, rfl⟩

/-- A literal query finds the node that it names. -/
theorem find_of_literal (h : Charted t ways) {l : Lookup} (tree : l.tree = t) {key : Key}
    (literal : '*' ∉ key.text) (hi : ways[i]? = some key.steps) : l.find key = some i := by
  subst tree
  rw [Lookup.find, Key.segments_of_literal literal]
  exact l.findFrom_of_walk? (Key.binding_of_literal literal)
    ((h.walk?_eq_some_iff h.root_way).2 hi)

end Tree.Charted

namespace Session

/-- A literal key names a node if it or a key that goes on from it was stored. It finds this node,
and it resolves to the text stored last under it, whatever is registered and whichever types there
are. -/
theorem resolve_literal (hierarchy : Hierarchy) (loader : Loader) (operations : List Operation)
    (registry : Registry) (types : Hierarchy) (objects : Objects) {raw : Text} {key : Key}
    (read : Key.parse raw = .ok key) (literal : '*' ∉ key.text) :
    let s : Store := ⟨((start hierarchy loader).run operations).store.tree, registry, types⟩
    let journal := (start hierarchy loader).journal operations
    ((∃ i, s.tree.findPath? key.text = some i) ↔ ∃ a ∈ journal, key.steps <+: a.1.steps) ∧
      ∀ i, s.tree.findPath? key.text = some i →
        (s.lookup objects).find key = some i ∧
          s.resolve objects raw =
            .ok (journal.contents[key.text]?.bind Value.ofStored?) := by
  intro s journal
  obtain ⟨ways, represents⟩ := (grown_run hierarchy loader operations).represents
  constructor
  · have named (i : NodeIndex) : s.tree.findPath? key.text = some i ↔ ways[i]? = some key.steps :=
      represents.findPath?_text_iff
    simp only [named, ← List.mem_iff_getElem?, represents.mem_iff, key.steps_ne_nil, false_or]
    exact Journal.exists_prefix_iff
  · intro i named
    have hi := represents.findPath?_text_iff.1 named
    have found : (s.lookup objects).find key = some i := represents.find_of_literal rfl literal hi
    refine ⟨found, ?_⟩
    have data : (s.tree.node i).data = journal.contents[key.text]? := by
      rw [Journal.getElem?_contents]
      exact represents.data_eq hi
    rw [Store.resolve, read]
    show Except.ok (s.find objects key) = _
    rw [Store.find, found]
    exact congrArg (fun data => Except.ok (Option.bind data Value.ofStored?)) data

/-- A key among patterns that all match it, stored twice, the second time relative to an object
whose type has a resource of its own. -/
theorem resolve_literal_among_patterns :
    let operations : List Operation :=
      [.insert "*title".toList (.single ['0']), .insert "app.x.title".toList (.single ['1']),
        .insert "app.?.title".toList (.single ['2']), .create "Panel".toList,
        .register "app.x".toList 0, .insertRelative 0 "title".toList (.single ['3']),
        .insert "app.Panel.title".toList (.single ['4'])]
    let s := (start TypeTable.empty ⟨.standard, ⟨∅, []⟩⟩).run operations
    s.store.resolve s.objects "app.x.title".toList = .ok (some (.single ['3'])) := by
  intro operations s
  have read := Key.parse_text ⟨"app.x.title".toList, by decide +kernel, by decide +kernel⟩
  obtain ⟨names, reads⟩ := resolve_literal TypeTable.empty ⟨.standard, ⟨∅, []⟩⟩ operations
    s.store.registry s.store.hierarchy s.objects read (by decide)
  obtain ⟨i, named⟩ := names.2 (by decide +kernel)
  have last : ((start TypeTable.empty ⟨.standard, ⟨∅, []⟩⟩).journal operations).contents[
      "app.x.title".toList]?.bind Value.ofStored? = some (.single ['3']) := by decide +kernel
  exact (reads i named).2.trans (congrArg Except.ok last)

end Session

end ResourceLookup
