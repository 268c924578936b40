import ResourceLookup.Proofs.Session.Registrations

/-!
# Re-entry by an absolute name

A key can be stored relative to a node, from where its own steps lead on, or under the absolute key
that joins the name of the node and the relative key. Delimiters may melt into each other in the
joined text; the steps are put together all the same, and those of the name lead back to the node
without creating anything. So it is with the names of objects, whether or not a node has the name.
-/

namespace ResourceLookup

namespace Tree

/-- Steps along nodes that are there create nothing. -/
theorem createPath_of_walk? {t : Tree} {start target : NodeIndex} {steps : List Step}
    (walk : t.walk? start steps = some target) : t.createPath start steps = (t, target) := by
  induction steps generalizing start with
  | nil =>
    obtain rfl := Option.some.inj walk
    rfl
  | cons step steps ih =>
    rw [walk?, Option.bind_eq_some_iff] at walk
    obtain ⟨child, found, rest⟩ := walk
    rw [createPath_cons, createChild_of_child? found]
    exact ih rest

/-- A text stored below a node is stored under the whole way from the root. -/
theorem insertAt_eq_insertAt_root {t : Tree} {start : NodeIndex} {key relative joined : Key}
    (walk : t.walk? root key.steps = some start)
    (steps : joined.steps = key.steps ++ relative.steps) (value : Text) :
    t.insertAt start relative value = t.insertAt root joined value := by
  rw [insertAt, insertAt, steps, createPath_append, createPath_of_walk? walk]

/-- Re-entry at a named node is insertion from the root under the joined key. -/
theorem Grown.insertAt_eq_insertAt_root {t : Tree} {log : List Write} (h : Grown t log)
    {i : NodeIndex} {name raw : Text} {relative : Key}
    (named : (t.node i).absoluteName = some name) (read : Key.parse raw = .ok relative) :
    ∃ key joined, Key.parse name = .ok key ∧ key.join raw = .ok joined ∧
      ∀ value, t.insertAt i relative value = t.insertAt root joined value := by
  obtain ⟨ways, represents⟩ := h.represents
  have inside : i < t.size := by
    by_contra beyond
    rw [node_of_size_le (Nat.le_of_not_lt beyond)] at named
    cases named
  have below : i ≠ root := by
    rintro rfl
    rw [represents.absoluteName_eq represents.root_way] at named
    cases named
  obtain ⟨key, text, walks⟩ := represents.absoluteName_spells inside below
  obtain rfl : key.text = name := Option.some.inj (text.symm.trans named)
  obtain ⟨joined, join, steps⟩ := key.steps_join read
  exact ⟨key, joined, key.parse_text, join,
    Tree.insertAt_eq_insertAt_root ((walks _).2 rfl) steps⟩

end Tree

namespace Store

variable {s : Store} {objects : Objects} {o : ObjectId} {name raw : Text}

/-- Under a valid name it makes no difference whether a key is stored relative to the object or
absolutely, and neither way fails. -/
theorem insertRelative_eq_insert {log : List Write} (grown : s.tree.Grown log)
    (named : s.registry.nameOf? objects.isAlive o = some name) (path : isValidPath name = true)
    (valid : Key.isValid raw = true) (typeName : Text) (value : Value) :
    ∃ key joined next, Key.parse name = .ok key ∧ key.join raw = .ok joined ∧
      s.insertRelative objects o typeName raw value = .ok next ∧
      s.insert (below name raw) value = .ok next := by
  obtain ⟨key, readName, rfl⟩ := exists_key_of_isValidPath path
  have read := Key.parse_of_isValid valid
  obtain ⟨joined, join, steps⟩ := key.steps_join read
  have absolute : Key.parse (below key.text raw) = .ok joined := join
  refine ⟨key, joined, { s with tree := s.tree.insert joined value.toStored }, readName, join,
    ?_, ?_⟩
  · cases found : s.tree.findPath? key.text with
    | none =>
      rw [insertRelative_of_findPath?_eq_none read named found, readName]
      show (key.join raw).map _ = _
      rw [join]
      rfl
    | some start =>
      obtain ⟨ways, represents⟩ := grown.represents
      obtain ⟨-, -, startNamed⟩ := represents.findPath?_eq_some_iff.1 found
      obtain ⟨key', joined', readName', join', same⟩ :=
        grown.insertAt_eq_insertAt_root startNamed read
      cases readName.symm.trans readName'
      cases join.symm.trans join'
      rw [insertRelative_of_findPath? read named found, same]
      rfl
  · rw [insert, insertText, absolute]
    rfl

end Store

namespace Session

/-- Storing below a node is storing from the root under the joined key, in every grown tree. After
any run, storing relative to an object that has a name is storing below this name: it succeeds for
the well-formed keys, and with the same result. -/
theorem insertRelative_agrees_with_insert :
    (∀ (t : Tree) (log : List Write), t.Grown log → ∀ (i : NodeIndex) (name : Text),
      (t.node i).absoluteName = some name → ∀ (raw : Text) (relative : Key),
        Key.parse raw = .ok relative →
          ∃ key joined, Key.parse name = .ok key ∧ key.join raw = .ok joined ∧
            ∀ value, t.insertAt i relative value = t.insertAt Tree.root joined value) ∧
    ∀ (hierarchy : Hierarchy) (loader : Loader) (operations : List Operation) (objects : Objects)
      (o : ObjectId) (name : Text),
      let s := ((start hierarchy loader).run operations).store
      s.registry.nameOf? objects.isAlive o = some name →
        ∀ (typeName raw : Text) (value : Value),
          (Key.isValid raw = true → ∃ key joined next,
            Key.parse name = .ok key ∧ key.join raw = .ok joined ∧
              s.insertRelative objects o typeName raw value = .ok next ∧
              s.insert (Store.below name raw) value = .ok next) ∧
          (Key.isValid raw = false →
            s.insertRelative objects o typeName raw value = .error (.malformedKey raw)) := by
  refine ⟨fun t log grown i name named raw relative read =>
    grown.insertAt_eq_insertAt_root named read, ?_⟩
  intro hierarchy loader operations objects o name s named typeName raw value
  have sound := sound_run (sound_start hierarchy loader) operations
  have path := sound.names o name (Registry.getElem?_names_of_nameOf? named)
  refine ⟨fun valid => ?_, Store.insertRelative_of_not_isValid⟩
  exact Store.insertRelative_eq_insert (grown_run hierarchy loader operations) named path valid
    typeName value

/-- A relative key whose delimiters melt into each other, below the node of a type and below that
of a registered object. -/
theorem insertRelative_agrees_below_object :
    let raw := "*.title".toList
    let panels : Key := ⟨"app*Panel".toList, by decide +kernel, by decide +kernel⟩
    let relative : Key := ⟨"*title".toList, by decide +kernel, by decide +kernel⟩
    let t := (Tree.empty.insertAt Tree.root panels ['1']).1
    let s := (start TypeTable.empty ⟨.standard, ⟨∅, []⟩⟩).run
      [.insert "app.x*y".toList (.single ['0']), .create "Panel".toList,
        .register "app.x".toList 0]
    (∃ key joined, Key.parse "app*Panel".toList = .ok key ∧ key.join raw = .ok joined ∧
      ∀ value, t.insertAt 2 relative value = t.insertAt Tree.root joined value) ∧
    ∃ key joined next, Key.parse "app.x".toList = .ok key ∧ key.join raw = .ok joined ∧
      s.store.insertRelative s.objects 0 "Panel".toList raw (.single ['1']) = .ok next ∧
      s.store.insert "app.x.*.title".toList (.single ['1']) = .ok next := by
  intro raw panels relative t s
  have inside : Tree.root < Tree.empty.size := by decide
  have read : Key.parse raw = .ok relative := by decide +kernel
  have panelNamed : (t.node 2).absoluteName = some "app*Panel".toList := by decide +kernel
  have registered : s.store.registry.nameOf? s.objects.isAlive 0 = some "app.x".toList := by
    decide +kernel
  obtain ⟨below, relativeTo⟩ := insertRelative_agrees_with_insert
  refine ⟨below t _ (.insertAt .empty inside panels ['1']) 2 _ panelNamed raw relative read, ?_⟩
  exact (relativeTo _ _ _ s.objects 0 _ registered "Panel".toList raw (.single ['1'])).1
    (by decide +kernel)

end Session

end ResourceLookup
