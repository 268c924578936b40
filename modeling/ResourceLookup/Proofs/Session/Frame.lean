import ResourceLookup.Proofs.Lookup.Pattern
import ResourceLookup.Proofs.Session.Run

/-!
# What a new resource leaves alone

Storing a text makes the nodes for the beginnings of its key that are missing. If none of these
beginnings matches a query, then no derivation of the query passes through a new node, so that the
query has no derivations but those that it had before. Only one thing can take the least of them
away: a new node for a type can stand nearer than a type child that is selected on its way, and then
the search does not get to the old one any more.
-/

namespace ResourceLookup

/-- Where more is found than before, the outcome is the same, or it comes from an element on which
nothing was found before, ahead of what was found then. -/
theorem findSome?_of_extends {α β : Type} {f g : α → Option β} {xs : List α}
    (h : ∀ x ∈ xs, g x = f x ∨ f x = none) :
    xs.findSome? g = xs.findSome? f ∨ ∃ x ∈ xs, f x = none ∧ g x ≠ none ∧
      xs.findSome? g = g x ∧
        ∀ y, xs.findSome? f = some y → ∃ x', [x, x'].Sublist xs ∧ f x' = some y := by
  induction xs with
  | nil => exact .inl rfl
  | cons x xs ih =>
    rw [List.findSome?_cons, List.findSome?_cons]
    cases hf : f x with
    | some y =>
      have same : g x = some y := by simpa [hf] using h x (.head _)
      left
      rw [same]
    | none =>
      cases hg : g x with
      | some y =>
        right
        refine ⟨x, .head _, hf, by simp [hg], hg.symm, ?_⟩
        intro z later
        obtain ⟨x', hx', found⟩ := List.exists_of_findSome?_eq_some later
        exact ⟨x', (List.singleton_sublist.2 hx').cons_cons x, found⟩
      | none =>
        obtain same | ⟨x', hx', old, new, first, rest⟩ := ih fun y hy => h y (.tail _ hy)
        · exact .inl same
        · right
          refine ⟨x', .tail _ hx', old, new, first, ?_⟩
          intro z later
          obtain ⟨x'', order, found⟩ := rest z later
          exact ⟨x'', order.cons x, found⟩

namespace Lookup

/-- For the segment of a query at a place, counted from one, a type stands in as a nearer one than
another. -/
def Nearer (l : Lookup) (query : List Text) (place : Nat) (name name' : Text) : Prop :=
  (Category.ofSegment name = .byType ∧ Category.ofSegment name' = .byType) ∧
    ∃ segment, query[place - 1]? = some segment ∧
      ∃ type, l.typeOf? (query.take place) segment = some type ∧
        [name, name'].Sublist (type :: l.hierarchy.ancestry type)

theorem nearer_iff {l : Lookup} {query : List Text} {place : Nat} {name name' : Text} :
    l.Nearer query place name name' ↔
      (Category.ofSegment name = .byType ∧ Category.ofSegment name' = .byType) ∧
        ∃ segment ∈ query[place - 1]?.toList,
          ∃ type ∈ (l.typeOf? (query.take place) segment).toList,
            [name, name'].Sublist (type :: l.hierarchy.ancestry type) := by
  simp only [Nearer, Option.mem_toList]

instance (l : Lookup) (query : List Text) (place : Nat) (name name' : Text) :
    Decidable (l.Nearer query place name name') :=
  decidable_of_iff _ nearer_iff.symm

/-- Along the given way steps bring in a type in front of another one. Both are bound alike below
the same node and stand in for the same segment of a query, the new one as the nearer. It is by the
other one that the least derivation of the query takes this segment. -/
structure OvertakesAt (l : Lookup) (query : List Text) (steps way : List Step) (b : Binding)
    (name name' : Text) (place : Nat) : Prop where
  begins : way ++ [⟨b, name⟩] <+: steps
  absent : l.tree.walk? Tree.root (way ++ [⟨b, name⟩]) = none
  nearer : l.Nearer query place name name'
  selected : ∃ front back onward found,
    l.LeastDerivation query Tree.root 0 (front ++ ⟨b, place, .byType⟩ :: back) found ∧
    front.length = way.length ∧ l.tree.stepsAt found = way ++ ⟨b, name'⟩ :: onward

/-- Steps overtake a type that is selected on the way of the least derivation of a query. -/
def Overtakes (l : Lookup) (query : List Text) (steps : List Step) : Prop :=
  ∃ way b name name' place, l.OvertakesAt query steps way b name name' place

section Extended

variable {l : Lookup} {u : Tree} {ways more : List (List Step)} {query : List Text}
variable {steps way : List Step} {i child : NodeIndex} {consumed : Nat} {picks : List Pick}

/-- A slot is filled as before, or it was empty and what stands in it now has a new way. -/
theorem get?_of_append (h : l.tree.Charted ways) (h' : u.Charted (ways ++ more))
    (hi : ways[i]? = some way) {b : Binding} {category : Category} {name : Text}
    (proper : category = .singleMatch → name = singleMatch) :
    ((u.node i).children b).get? category name =
        ((l.tree.node i).children b).get? category name ∨
      ((l.tree.node i).children b).get? category name = none ∧
        ∀ child, ((u.node i).children b).get? category name = some child →
          (ways ++ more)[child]? = some (way ++ [⟨b, name⟩]) ∧ way ++ [⟨b, name⟩] ∉ ways := by
  have hi' : (ways ++ more)[i]? = some way := Tree.getElem?_append_of_eq_some hi more
  cases old : ((l.tree.node i).children b).get? category name with
  | some child =>
    obtain ⟨rule, hc⟩ := (h.get?_eq_some_iff hi proper).1 old
    left
    apply (h'.get?_eq_some_iff hi' proper).2
    exact ⟨rule, Tree.getElem?_append_of_eq_some hc more⟩
  | none =>
    refine .inr ⟨rfl, ?_⟩
    intro child found
    obtain ⟨rule, hc⟩ := (h'.get?_eq_some_iff hi' proper).1 found
    refine ⟨hc, ?_⟩
    intro known
    obtain ⟨child', hc'⟩ := List.getElem?_of_mem known
    rw [(h.get?_eq_some_iff hi proper).2 ⟨rule, hc'⟩] at old
    cases old

theorem walk?_eq_none_of_not_mem (h : l.tree.Charted ways) (fresh : way ∉ ways) :
    l.tree.walk? Tree.root way = none := by
  rw [Option.eq_none_iff_forall_ne_some]
  intro child walk
  exact fresh (List.mem_of_getElem? ((h.walk?_eq_some_iff h.root_way).1 walk))

/-- What a pick leads to after new nodes are made: the same as before, or else a new node. In the
latter case the pick led nowhere before, or it led by type to a child that has a nearer one now. -/
def Replaced (l : Lookup) (ways more : List (List Step)) (query : List Text) (way : List Step)
    (pick : Pick) (old new : Option NodeIndex) : Prop :=
  new = old ∨ ∃ child step, new = some child ∧ (ways ++ more)[child]? = some (way ++ [step]) ∧
    way ++ [step] ∉ ways ∧ l.Takes query pick step ∧
    ∀ child', old = some child' → ∃ name', ways[child']? = some (way ++ [⟨pick.binding, name'⟩]) ∧
      pick.choice = .byType ∧ l.Nearer query pick.anchor step.segment name'

/-- The child in a slot that one name fills. -/
theorem replaced_of_takes (h : l.tree.Charted ways) (h' : u.Charted (ways ++ more))
    (hi : ways[i]? = some way) {pick : Pick} {category : Category} {name : Text}
    (proper : category = .singleMatch → name = singleMatch)
    (takes : l.Takes query pick ⟨pick.binding, name⟩) :
    l.Replaced ways more query way pick
      (((l.tree.node i).children pick.binding).get? category name)
      (((u.node i).children pick.binding).get? category name) := by
  obtain same | ⟨nothing, fill⟩ := get?_of_append h h' hi (b := pick.binding) proper
  · exact .inl same
  rw [nothing]
  cases found : ((u.node i).children pick.binding).get? category name with
  | none => exact .inl rfl
  | some child =>
    obtain ⟨hc, fresh⟩ := fill child found
    exact .inr ⟨child, ⟨pick.binding, name⟩, rfl, hc, fresh, takes, by simp⟩

/-- The nearest child for a type. -/
theorem replaced_nearest? (h : l.tree.Charted ways) (h' : u.Charted (ways ++ more))
    (hi : ways[i]? = some way) {b : Binding} {place : Nat} {segment type : Text}
    (taken : query[place - 1]? = some segment)
    (recorded : l.typeOf? (query.take place) segment = some type) :
    l.Replaced ways more query way ⟨b, place, .byType⟩
      (l.nearest? ((l.tree.node i).children b) type)
      (l.nearest? ((u.node i).children b) type) := by
  have proper (name : Text) : Category.byType = .singleMatch → name = singleMatch := by simp
  have slots (name : Text) := get?_of_append h h' hi (b := b) (proper name)
  obtain same | ⟨name, listed, before, found, first, order⟩ :=
    findSome?_of_extends fun name (_ : name ∈ type :: l.hierarchy.ancestry type) =>
      (slots name).imp_right And.left
  · exact .inl same
  right
  obtain ⟨child, hn⟩ := Option.ne_none_iff_exists'.1 found
  obtain ⟨hc, fresh⟩ : (ways ++ more)[child]? = some (way ++ [⟨b, name⟩]) ∧
      way ++ [⟨b, name⟩] ∉ ways := by
    obtain same | ⟨-, fill⟩ := slots name
    · exact absurd (same.trans before) found
    · exact fill child hn
  have hi' : (ways ++ more)[i]? = some way := Tree.getElem?_append_of_eq_some hi more
  have rule := ((h'.get?_eq_some_iff hi' (proper name)).1 hn).1
  refine ⟨child, ⟨b, name⟩, first.trans hn, hc, fresh,
    ⟨rfl, segment, taken, rule.symm, type, recorded, listed⟩, ?_⟩
  intro child' old
  obtain ⟨name', nearer, hn'⟩ := order child' old
  obtain ⟨rule', hc'⟩ := (h.get?_eq_some_iff hi (proper name')).1 hn'
  exact ⟨name', hc', rfl, ⟨rule.symm, rule'.symm⟩, segment, taken, type, recorded, nearer⟩

theorem replaced_follow? (h : l.tree.Charted ways) (h' : u.Charted (ways ++ more))
    (hi : ways[i]? = some way) (pick : Pick) :
    l.Replaced ways more query way pick (l.follow? query i pick)
      (({ l with tree := u } : Lookup).follow? query i pick) := by
  obtain ⟨b, place, choice⟩ := pick
  cases taken : query[place - 1]? with
  | none =>
    left
    simp only [follow?, taken, Option.bind_none]
  | some segment =>
    simp only [follow?, taken, Option.bind_some]
    cases choice with
    | exact =>
      exact replaced_of_takes h h' hi Category.ofSegment_eq_singleMatch_iff.1
        ⟨rfl, segment, taken, rfl⟩
    | single =>
      have proper : Category.singleMatch = .singleMatch → singleMatch = singleMatch := fun _ => rfl
      exact replaced_of_takes h h' hi proper ⟨rfl, segment, taken, rfl⟩
    | byType =>
      have typed : ({ l with tree := u } : Lookup).typeOf? (query.take place) segment =
        l.typeOf? (query.take place) segment := rfl
      rw [chosen?_byType, chosen?_byType, typed]
      cases recorded : l.typeOf? (query.take place) segment with
      | none => exact .inl rfl
      | some type => exact replaced_nearest? h h' hi taken recorded

/-- No derivation goes on from a new node, since the way to its end would match the query. -/
theorem not_derives_of_fresh (h : l.tree.Charted ways) (h' : u.Charted (ways ++ more))
    (new : ∀ w ∈ more, w <+: steps)
    (unmatched : ∀ pre picks, pre ≠ [] → pre <+: steps →
      ¬ l.Matches query 0 picks pre query.length)
    (hc : (ways ++ more)[child]? = some way) (fresh : way ∉ ways)
    (reached : l.Matches query 0 picks way consumed) (rest : List Pick) (target : NodeIndex) :
    ¬ ({ l with tree := u } : Lookup).Derives query child consumed rest target := by
  intro derives
  obtain ⟨onward, ht, matched⟩ := derives.exists_matches h' hc
  have unknown : way ++ onward ∉ ways := by
    intro known
    exact fresh (h.mem_of_prefix known (List.prefix_append way onward))
  have added := (List.mem_append.1 (List.mem_of_getElem? ht)).resolve_left unknown
  have nonempty : way ++ onward ≠ [] := by
    intro top
    rw [top] at unknown
    exact unknown (List.mem_of_getElem? h.root_way)
  exact unmatched _ _ nonempty (new _ added) (reached.append matched.of_tree)

/-- The new nodes bring no derivations. -/
theorem derives_of_append (h : l.tree.Charted ways) (h' : u.Charted (ways ++ more))
    (new : ∀ w ∈ more, w <+: steps)
    (unmatched : ∀ pre picks, pre ≠ [] → pre <+: steps →
      ¬ l.Matches query 0 picks pre query.length)
    (hi : ways[i]? = some way) (reached : l.Matches query 0 picks way consumed)
    {rest : List Pick} {target : NodeIndex}
    (derives : ({ l with tree := u } : Lookup).Derives query i consumed rest target) :
    l.Derives query i consumed rest target := by
  induction derives generalizing way picks with
  | done => exact .done
  | step allowed follow rest ih =>
    obtain same | ⟨child, step, there, hc, fresh, takes, -⟩ := replaced_follow? h h' hi _
    · rw [same] at follow
      obtain ⟨step, hc, takes⟩ := exists_takes_of_follow? h hi follow
      exact .step allowed follow (ih hc (reached.append (.singleton allowed takes)))
    · obtain rfl := Option.some.inj (there.symm.trans follow)
      exact absurd rest (not_derives_of_fresh h h' new unmatched hc fresh
        (reached.append (.singleton allowed takes)) _ _)

/-- The least derivation stays, unless a type on its way is overtaken. The induction is on the picks
that are left. -/
theorem derives_append_of_least (h : l.tree.Charted ways) (h' : u.Charted (ways ++ more))
    (new : ∀ w ∈ more, w <+: steps) (unovertaken : ¬ l.Overtakes query steps)
    (hi : ways[i]? = some way) (front : List Pick) {rest : List Pick} {target : NodeIndex}
    (least : l.LeastDerivation query Tree.root 0 (front ++ rest) target)
    (reached : front.length = way.length) (derives : l.Derives query i consumed rest target) :
    ({ l with tree := u } : Lookup).Derives query i consumed rest target := by
  induction derives generalizing front way with
  | done => exact .done
  | @step node child target consumed pick rest allowed follow onward ih =>
    obtain same | ⟨_, step, -, hc, fresh, takes, displaced⟩ := replaced_follow? h h' hi pick
    · obtain ⟨step, hc, -⟩ := exists_takes_of_follow? h hi follow
      refine .step allowed (same.trans follow) (ih hc (front ++ [pick]) ?_ ?_)
      · rwa [List.append_assoc]
      · simp [reached]
    · obtain ⟨name', hc', byType, nearer⟩ := displaced child follow
      obtain ⟨b, place, choice⟩ := pick
      obtain rfl : choice = .byType := byType
      obtain ⟨b', name⟩ := step
      obtain rfl : b' = b := takes.binding_eq
      obtain ⟨others, ht, -⟩ := onward.exists_matches h hc'
      have added := (List.mem_append.1 (List.mem_of_getElem? hc)).resolve_left fresh
      refine absurd ⟨way, b', name, name', place, ?_⟩ unovertaken
      exact {
        begins := new _ added
        absent := walk?_eq_none_of_not_mem h fresh
        nearer
        selected := ⟨front, rest, others, target, least, reached,
          (h.stepsAt_eq ht).trans (List.append_assoc ..)⟩ }

/-- New nodes whose ways match nothing change no search that has no type on its way overtaken. -/
theorem find_of_append {key : Key} (h : l.tree.Charted ways) (h' : u.Charted (ways ++ more))
    (new : ∀ w ∈ more, w <+: steps)
    (unmatched : ∀ pre picks, pre ≠ [] → pre <+: steps →
      ¬ l.Matches key.segments 0 picks pre key.segments.length)
    (unovertaken : ¬ l.Overtakes key.segments steps) :
    ({ l with tree := u } : Lookup).find key = l.find key := by
  have old {picks : List Pick} {target : NodeIndex}
      (derives : ({ l with tree := u } : Lookup).Derives key.segments Tree.root 0 picks target) :
      l.Derives key.segments Tree.root 0 picks target :=
    derives_of_append h h' new unmatched h.root_way .done derives
  cases found : l.find key with
  | none =>
    rw [Option.eq_none_iff_forall_ne_some]
    intro target arrived
    obtain ⟨picks, least⟩ := exists_least_of_find arrived
    obtain ⟨target', found'⟩ := exists_find_of_derives (old least.1)
    cases found.symm.trans found'
  | some target =>
    obtain ⟨picks, least⟩ := exists_least_of_find found
    have kept := derives_append_of_least h h' new unovertaken h.root_way [] least rfl least.1
    exact find_eq_of_least ⟨kept, fun others other derives => least.2 others other (old derives)⟩

/-- Nothing is overtaken if no step names a nearer type than one on the way to what is found. -/
theorem not_overtakes_of_find {key : Key} {t : NodeIndex} (found : l.find key = some t)
    (behind : ∀ step ∈ steps, ∀ step' ∈ l.tree.stepsAt t,
      ∀ place < key.segments.length + 1,
        ¬ l.Nearer key.segments place step.segment step'.segment) :
    ¬ l.Overtakes key.segments steps := by
  rintro ⟨way, b, name, name', place, overtaking⟩
  obtain ⟨front, back, onward, target', least, -, stepsAt_eq⟩ := overtaking.selected
  obtain rfl := Option.some.inj (found.symm.trans (find_eq_of_least least))
  obtain ⟨-, segment, taken, -⟩ := overtaking.nearer
  have within : place - 1 < key.segments.length := (List.getElem?_eq_some_iff.1 taken).1
  have brought : ⟨b, name⟩ ∈ steps := overtaking.begins.subset (by simp)
  have passed : ⟨b, name'⟩ ∈ l.tree.stepsAt t := by simp [stepsAt_eq]
  exact behind _ brought _ passed place (by omega) overtaking.nearer

end Extended

end Lookup

namespace Tree.Represents

variable {t u : Tree} {ways more : List (List Step)} {log : List Write} {e : Write}

/-- One more write puts only beginnings of its way on the chart. -/
theorem prefix_of_mem_more (h : Represents t ways log)
    (h' : Represents u (ways ++ more) (log ++ [e])) {way : List Step} (hw : way ∈ more) :
    way <+: e.way := by
  have unknown : way ∉ ways := fun known => (List.nodup_append.1 h'.nodup).2.2 _ known _ hw rfl
  obtain rfl | ⟨e', written, begins⟩ := (h'.mem_iff way).1 (List.mem_append_right _ hw)
  · exact List.nil_prefix
  · obtain earlier | last := List.mem_append.1 written
    · exact absurd ((h.mem_iff way).2 (.inr ⟨e', earlier, begins⟩)) unknown
    · exact List.mem_singleton.1 last ▸ begins

end Tree.Represents

namespace Store

/-- Storing a text under a key leaves a query alone that matches no beginning of the key, unless a
type is overtaken. -/
theorem find_insert_of_unmatched {s : Store} {objects : Objects} {key query : Key}
    {log : List Write} (grown : s.tree.Grown log) (value : Text)
    (unmatched : ∀ pre picks, pre ≠ [] → pre <+: key.steps →
      ¬ (s.lookup objects).Matches query.segments 0 picks pre query.segments.length)
    (unovertaken : ¬ (s.lookup objects).Overtakes query.segments key.steps) :
    ({ s with tree := s.tree.insert key value } : Store).find objects query =
      s.find objects query := by
  obtain ⟨ways, before⟩ := grown.represents
  obtain ⟨more, after⟩ := before.insertAt before.root_way key value
  have search : ({ s.lookup objects with tree := s.tree.insert key value } : Lookup).find query =
      (s.lookup objects).find query :=
    Lookup.find_of_append (l := s.lookup objects) before.toCharted after.toCharted
      (fun w hw => before.prefix_of_mem_more after hw) unmatched unovertaken
  have start : ({ s with tree := s.tree.insert key value } : Store).lookup objects =
      { s.lookup objects with tree := s.tree.insert key value } := rfl
  rw [find, find, start, search]
  cases arrived : (s.lookup objects).find query with
  | none => rfl
  | some i =>
    obtain ⟨picks, derivation⟩ := Lookup.exists_least_of_find arrived
    obtain ⟨way, hi, matched⟩ := derivation.1.exists_matches before.toCharted before.root_way
    rw [List.nil_append] at hi
    have nonempty : way ≠ [] := by
      rintro rfl
      have none_left := matched.finish_eq_of_nil
      exact query.segments_ne_nil (List.length_eq_zero_iff.1 none_left)
    have elsewhere : [] ++ key.steps ≠ way := by
      rintro rfl
      exact unmatched _ picks nonempty List.prefix_rfl matched
    have data : ((s.tree.insert key value).node i).data = (s.tree.node i).data := by
      rw [before.data_eq hi]
      refine (after.data_eq (Tree.getElem?_append_of_eq_some hi more)).trans ?_
      rw [lastWritten_concat, if_neg elsewhere]
    exact congrArg (Option.bind · Value.ofStored?) data

end Store

namespace Session

/-- Storing a value under a key changes the result of no query that matches neither the key nor a
beginning of it, provided that the key overtakes no type on the way of the least derivation. -/
theorem resolve_insert_of_unmatched (hierarchy : Hierarchy) (loader : Loader)
    (operations : List Operation) {raw rawQuery : Text} {key query : Key}
    (read : Key.parse raw = .ok key) (readQuery : Key.parse rawQuery = .ok query)
    (value : Value) :
    let s := (start hierarchy loader).run operations
    let l := s.store.lookup s.objects
    (∀ pre picks, pre ≠ [] → pre <+: key.steps →
      ¬ l.Matches query.segments 0 picks pre query.segments.length) →
    ¬ l.Overtakes query.segments key.steps →
    ∃ next, s.store.insert raw value = .ok next ∧
      next.resolve s.objects rawQuery = s.store.resolve s.objects rawQuery := by
  intro s l unmatched unovertaken
  have grown := grown_run hierarchy loader operations
  have found := Store.find_insert_of_unmatched grown value.toStored unmatched unovertaken
  refine ⟨{ s.store with tree := s.store.tree.insert key value.toStored }, ?_, ?_⟩
  · rw [Store.insert, Store.insertText, read]
    rfl
  · rw [Store.resolve, Store.resolve, readQuery]
    exact congrArg Except.ok found

/-- A farther type does not come in between where a nearer one is selected, and a nearer one does no
harm to a query that is found by name. -/
theorem resolve_insert_of_farther_type :
    let types := (TypeTable.empty.declare "Frame".toList (some "Window".toList) []).declare
      "Window".toList (some "Component".toList) []
    let s := (start types ⟨.standard, ⟨∅, []⟩⟩).run
      [.insert "app*Window.c".toList (.single ['1']), .insert "*c".toList (.single ['2']),
        .insert "*Component.title".toList (.single ['3']),
        .insert "app.title".toList (.single ['4']), .create "Frame".toList,
        .register "app".toList 0]
    (∃ next, s.store.insert "app*Component.d".toList (.single ['5']) = .ok next ∧
      next.resolve s.objects "app.x.Frame.c".toList =
        s.store.resolve s.objects "app.x.Frame.c".toList) ∧
      ∃ next, s.store.insert "*Frame.color".toList (.single ['6']) = .ok next ∧
        next.resolve s.objects "app.title".toList =
          s.store.resolve s.objects "app.title".toList := by
  intro types s
  constructor
  · have read := Key.parse_text ⟨"app*Component.d".toList, by decide +kernel, by decide +kernel⟩
    have readQuery := Key.parse_text ⟨"app.x.Frame.c".toList, by decide +kernel, by decide +kernel⟩
    refine resolve_insert_of_unmatched types _ _ read readQuery _ ?_ ?_
    · exact Lookup.not_matches_of_canMatch (by decide +kernel)
    · exact Lookup.not_overtakes_of_find (t := 3) (by decide +kernel) (by decide +kernel)
  · have read := Key.parse_text ⟨"*Frame.color".toList, by decide +kernel, by decide +kernel⟩
    have readQuery := Key.parse_text ⟨"app.title".toList, by decide +kernel, by decide +kernel⟩
    refine resolve_insert_of_unmatched types _ _ read readQuery _ ?_ ?_
    · exact Lookup.not_matches_of_canMatch (by decide +kernel)
    · exact Lookup.not_overtakes_of_find (t := 7) (by decide +kernel) (by decide +kernel)

/-- A new node for a nearer type hides the one for a farther type, although neither the new key nor
a beginning of it matches the query. -/
theorem overtaken_type_is_lost :
    let types := TypeTable.empty.declare "Container".toList (some "Component".toList) []
    let s := (start types ⟨.standard, ⟨∅, []⟩⟩).run
      [.insert "Component.c".toList (.single ['1'])]
    let l := s.store.lookup s.objects
    let key : Key := ⟨"Container.d".toList, by decide +kernel, by decide +kernel⟩
    let query : Key := ⟨"Container.c".toList, by decide +kernel, by decide +kernel⟩
    (∀ pre picks, pre ≠ [] → pre <+: key.steps →
        ¬ l.Matches query.segments 0 picks pre query.segments.length) ∧
      s.store.resolve s.objects query.text = .ok (some (.single ['1'])) ∧
      (s.store.insert key.text (.single ['2'])).bind (·.resolve s.objects query.text) =
        .ok none := by
  intro types s l key query
  refine ⟨Lookup.not_matches_of_canMatch ?_, ?_, ?_⟩ <;> decide +kernel

end Session

end ResourceLookup
