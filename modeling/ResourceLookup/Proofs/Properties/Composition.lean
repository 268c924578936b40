import ResourceLookup.Proofs.Properties.Joining
import ResourceLookup.Proofs.Store.Bulk

/-!
# Streams one behind the other

Behind a line end at which no logical line waits for more, a reader of properties stands as at the
beginning of a stream, but for the number of the line. So a stream that is put behind another one
adds what it holds by itself: `parse_append` says so for entries and warnings, and
`readResources_append` for what is stored and reported.
-/

namespace ResourceLookup

/-- A list is cut into one piece more than it has separators. -/
theorem length_splitOn {α : Type} [DecidableEq α] (separator : α) (items : List α) :
    (items.splitOn separator).length = items.count separator + 1 := by
  induction items with
  | nil => rfl
  | cons a items ih =>
    rw [List.splitOn_cons_eq_if_modifyHead, List.count_cons]
    split
    · rw [List.length_cons, ih]
    · rw [List.length_modifyHead, ih]

namespace Lines

variable {α : Type} [DecidableEq α] {feed carriage : α} {items : List α}

/-- Behind a line end the lines start anew. -/
theorem all_append_of_ended (ends : items = [] ∨ items.getLast? = some feed) (more : List α) :
    all feed carriage (items ++ more) = all feed carriage items ++ all feed carriage more := by
  rcases ends with rfl | ends
  · simp
  · obtain ⟨before, rfl⟩ := List.getLast?_eq_some_iff.1 ends
    rw [List.append_assoc, List.singleton_append, all_append_feed, all_append_feed, all_nil,
      List.append_nil]

/-- Lines that all end are as many as there are line ends. -/
theorem length_all_of_ended (ends : items = [] ∨ items.getLast? = some feed) :
    (all feed carriage items).length = items.count feed := by
  rcases ends with rfl | ends
  · simp
  · obtain ⟨before, rfl⟩ := List.getLast?_eq_some_iff.1 ends
    rw [all_append_feed, all_nil, List.append_nil, List.length_map, length_splitOn,
      List.count_append, List.count_singleton_self]

end Lines

namespace LogicalLine

/-- The logical line that still waits for another line when these lines have been joined. -/
def waitingAfter (number : Nat) (waiting : Option LogicalLine) :
    List Text → Option LogicalLine
  | [] => waiting
  | line :: rest =>
    let opened := waiting.isSome
    let start := (waiting.map (·.number)).getD number
    let text := (waiting.map (·.text)).getD [] ++ line.trimStart
    if !opened && isIdle text then waitingAfter (number + 1) none rest
    else if continues text then waitingAfter (number + 1) (some ⟨start, text.dropLast⟩) rest
    else waitingAfter (number + 1) none rest

variable {ended : Bool} {number : Nat} {waiting : Option LogicalLine}

/-- Where lines follow, all that counts about the lines before them is which one waits. -/
theorem join_append (lines more : List Text) :
    join ended number waiting (lines ++ more) =
      join false number waiting lines ++
        join ended (number + lines.length) (waitingAfter number waiting lines) more := by
  induction lines generalizing number waiting with
  | nil => rfl
  | cons line lines ih =>
    have length : number + (line :: lines).length = number + 1 + lines.length := by
      rw [List.length_cons]
      omega
    rw [List.cons_append, join, join, waitingAfter, length]
    split
    · exact ih
    · split
      · exact ih
      · exact congrArg _ ih

/-- If no line waits at the end, it does not matter whether the source ends or fails there. -/
theorem join_of_settled {lines : List Text} (settled : waitingAfter number waiting lines = none) :
    join ended number waiting lines = join false number waiting lines := by
  have nothing : join ended (number + lines.length) none [] = [] := by
    cases ended <;> rfl
  rw [← List.append_nil lines, join_append, settled, nothing, List.append_nil, List.append_nil]

/-- A logical line that starts further down. -/
def lower (offset : Nat) (line : LogicalLine) : LogicalLine :=
  { line with number := line.number + offset }

/-- Further down the lines are joined alike. -/
theorem join_lower (offset : Nat) (waiting : Option LogicalLine) (lines : List Text) :
    join ended (number + offset) (waiting.map (lower offset)) lines =
      (join ended number waiting lines).map (lower offset) := by
  induction lines generalizing number waiting with
  | nil =>
    rw [join, join]
    cases ended <;> cases waiting <;> rfl
  | cons line lines ih =>
    have next : number + offset + 1 = number + 1 + offset := Nat.add_right_comm ..
    have goes (number start : Nat) (text : Text) :
        goOn ended (number + offset) (start + offset) text lines =
          (goOn ended number start text lines).map (lower offset) := by
      rw [goOn, goOn]
      split
      · exact ih (some ⟨start, text.dropLast⟩)
      · exact congrArg _ (ih none)
    cases waiting with
    | some w =>
      rw [Option.map_some, join_waiting, join_waiting, next]
      exact goes ..
    | none =>
      rw [Option.map_none]
      cases idle : isIdle line.trimStart with
      | true =>
        rw [join_idle idle, join_idle idle, next]
        exact ih none
      | false =>
        rw [join_active idle, join_active idle, next]
        exact goes ..

end LogicalLine

/-- A warning about a line that is further down. -/
def Warning.lower (offset : Nat) : Warning → Warning
  | malformedEscape line digits => malformedEscape (line + offset) digits
  | warning => warning

/-- What is on a line does not depend on where the line stands. -/
theorem Entry.ofLine_lower (offset : Nat) (line : LogicalLine) :
    ofLine (line.lower offset) = (ofLine line).mapError (Warning.lower offset) := by
  rw [ofLine, ofLine, LogicalLine.lower]
  cases decode line.text <;> rfl

namespace Properties

theorem entries_append (results more : List (Except Warning Entry)) :
    entries (results ++ more) = entries results ++ entries more :=
  List.filterMap_append

theorem complaints_append (results more : List (Except Warning Entry)) :
    complaints (results ++ more) = complaints results ++ complaints more :=
  List.filterMap_append

theorem entries_map_mapError (f : Warning → Warning) (results : List (Except Warning Entry)) :
    entries (results.map (Except.mapError f)) = entries results := by
  rw [entries, entries, List.filterMap_map]
  congr 1
  funext result
  cases result <;> rfl

theorem complaints_map_mapError (f : Warning → Warning) (results : List (Except Warning Entry)) :
    complaints (results.map (Except.mapError f)) = (complaints results).map f := by
  rw [complaints, complaints, List.filterMap_map, List.map_filterMap]
  congr 1
  funext result
  cases result <;> rfl

/-- Bytes behind which a reader stands as at the beginning of a stream: they are none or end with a
line feed, and no logical line waits there for another line. -/
structure Closed (bytes : List UInt8) : Prop where
  ends : bytes = [] ∨ bytes.getLast? = some 10
  settled : LogicalLine.waitingAfter 1 none (Source.ofBytes bytes).lines = none

variable {bytes : List UInt8}

/-- The lines of both streams hold what they hold in the streams by themselves. -/
theorem Closed.lineResults_append (h : Closed bytes) (more : List UInt8) :
    lineResults (.ofBytes (bytes ++ more)) =
      lineResults (.ofBytes bytes) ++
        (lineResults (.ofBytes more)).map (Except.mapError (Warning.lower (bytes.count 10))) := by
  have lines : (Source.ofBytes (bytes ++ more)).lines =
      (Source.ofBytes bytes).lines ++ (Source.ofBytes more).lines := by
    show (Lines.all 10 13 (bytes ++ more)).map Text.ofBytes = _
    rw [Lines.all_append_of_ended h.ends, List.map_append]
    rfl
  have length : (Source.ofBytes bytes).lines.length = bytes.count 10 := by
    show ((Lines.all 10 13 bytes).map Text.ofBytes).length = _
    rw [List.length_map, Lines.length_all_of_ended h.ends]
  have first : LogicalLine.join false 1 none (Source.ofBytes bytes).lines =
      LogicalLine.ofSource (.ofBytes bytes) := (LogicalLine.join_of_settled h.settled).symm
  have second : LogicalLine.join true (1 + bytes.count 10) none (Source.ofBytes more).lines =
      (LogicalLine.ofSource (.ofBytes more)).map (LogicalLine.lower (bytes.count 10)) :=
    LogicalLine.join_lower _ none _
  have joined : LogicalLine.ofSource (.ofBytes (bytes ++ more)) =
      LogicalLine.ofSource (.ofBytes bytes) ++
        (LogicalLine.ofSource (.ofBytes more)).map (LogicalLine.lower (bytes.count 10)) := by
    show LogicalLine.join true 1 none (Source.ofBytes (bytes ++ more)).lines = _
    rw [lines, LogicalLine.join_append, h.settled, length, first, second]
  rw [lineResults, joined, List.map_append, List.map_map, lineResults, lineResults, List.map_map]
  congr 2
  funext line
  exact Entry.ofLine_lower _ line

theorem Closed.parse_append (h : Closed bytes) (more : List UInt8) :
    parse (.ofBytes (bytes ++ more)) =
      ⟨.ok ((Source.ofBytes bytes).entries ++ (Source.ofBytes more).entries),
        (parse (.ofBytes bytes)).warnings ++
          (parse (.ofBytes more)).warnings.map (Warning.lower (bytes.count 10))⟩ := by
  show Logged.mk (.ok (entries (lineResults _))) (complaints (lineResults _)) = _
  rw [h.lineResults_append, entries_append, complaints_append, entries_map_mapError,
    complaints_map_mapError]
  rfl

theorem Closed.entries_append (h : Closed bytes) (more : List UInt8) :
    (Source.ofBytes (bytes ++ more)).entries =
      (Source.ofBytes bytes).entries ++ (Source.ofBytes more).entries := by
  rw [Source.entries, h.parse_append]

end Properties

namespace Store

/-- The reports about the halves of a list of entries make up the report about the whole. -/
theorem insertAll_report_append (s next : Store) (entries more : List Entry) :
    (s.insertAll (entries ++ more)).2 = (s.insertAll entries).2.merge (next.insertAll more).2 := by
  simp only [insertAll_report, Report.merge, List.filter_append, List.length_append,
    List.map_append]

theorem readResources_ofBytes (s : Store) (bytes : List UInt8) :
    (s.readResources (.ofBytes bytes)).1 = (s.insertAll (Source.ofBytes bytes).entries).1 ∧
      (s.readResources (.ofBytes bytes)).2.outcome =
        .ok (s.insertAll (Source.ofBytes bytes).entries).2 := by
  rw [s.readResources_of_sound rfl]
  exact ⟨rfl, rfl⟩

open Properties

theorem store_readResources_append {bytes : List UInt8} (closed : Closed bytes)
    (more : List UInt8) (s : Store) :
    (s.readResources (.ofBytes (bytes ++ more))).1 =
      ((s.readResources (.ofBytes bytes)).1.readResources (.ofBytes more)).1 := by
  simp only [readResources_eq, closed.entries_append, insertAll_append]

/-- Two streams, the first of which leaves nothing to complete, are read one behind the other as
they are read one by one: the entries, the warnings, with the lines of the second stream numbered
on, what is stored, and what is reported. Whatever stands between them, be it malformed, adds its
own entries and changes none of theirs. -/
theorem readResources_append {first : List UInt8} (closed : Closed first) (second : List UInt8) :
    ∃ entries₁ entries₂,
      (parse (.ofBytes first)).outcome = .ok entries₁ ∧
      (parse (.ofBytes second)).outcome = .ok entries₂ ∧
      parse (.ofBytes (first ++ second)) =
        ⟨.ok (entries₁ ++ entries₂),
          (parse (.ofBytes first)).warnings ++
            (parse (.ofBytes second)).warnings.map (Warning.lower (first.count 10))⟩ ∧
      (∀ s : Store,
        let loaded := s.readResources (.ofBytes first)
        let next := loaded.1.readResources (.ofBytes second)
        ∃ report₁ report₂, loaded.2.outcome = .ok report₁ ∧ next.2.outcome = .ok report₂ ∧
          (s.readResources (.ofBytes (first ++ second))).1 = next.1 ∧
          (s.readResources (.ofBytes (first ++ second))).2.outcome =
            .ok (report₁.merge report₂)) ∧
      ∀ between, Closed between → ∃ entries,
        (parse (.ofBytes between)).outcome = .ok entries ∧
        (parse (.ofBytes (first ++ (between ++ second)))).outcome =
          .ok (entries₁ ++ (entries ++ entries₂)) ∧
        ∀ s : Store, (s.readResources (.ofBytes (first ++ (between ++ second)))).1 =
          (((s.readResources (.ofBytes first)).1.readResources (.ofBytes between)).1.readResources
            (.ofBytes second)).1 := by
  refine ⟨(Source.ofBytes first).entries, (Source.ofBytes second).entries, rfl, rfl,
    closed.parse_append second, ?_, ?_⟩
  · intro s loaded next
    refine ⟨_, _, (s.readResources_ofBytes first).2, (loaded.1.readResources_ofBytes second).2,
      store_readResources_append closed second s, ?_⟩
    rw [(s.readResources_ofBytes (first ++ second)).2, closed.entries_append,
      insertAll_report_append]
  · intro between closed'
    refine ⟨(Source.ofBytes between).entries, rfl, ?_, fun s => ?_⟩
    · rw [closed.parse_append, closed'.entries_append]
    · rw [store_readResources_append closed, store_readResources_append closed']

/-- Behind a comment that ends in a backslash, a malformed escape, a line that goes on to an empty
one, a malformed key, and a line that is not in UTF-8. The malformed key is read and reported, and
the entries on either side of it are stored. -/
theorem readResources_append_behind_malformed :
    let first : List UInt8 :=
      Text.utf8 "! a\\\r\na=\\u12\nb\\\n\ne..f=1\n".toList ++ [233, 61, 255, 10]
    let second : List UInt8 := Text.utf8 "\nc=\\uD800\nx y".toList
    let loaded := (new TypeTable.empty).readResources (.ofBytes (first ++ second))
    Closed first ∧
      parse (.ofBytes (first ++ second)) =
        ⟨.ok [⟨['b'], []⟩, ⟨"e..f".toList, ['1']⟩, ⟨['é'], ['ÿ']⟩, ⟨['x'], ['y']⟩],
          [.malformedEscape 2 "12".toList, .malformedEscape 8 "D800".toList]⟩ ∧
      loaded.2.outcome = .ok ⟨3, ["e..f".toList]⟩ ∧
      loaded.1.tree.dump Tree.root = "b: \nx: y\né: ÿ\n".toList := by
  intro first second loaded
  have closed : Closed first := ⟨by decide +kernel, by decide +kernel⟩
  obtain ⟨entries₁, entries₂, read₁, read₂, parsed, stored, -⟩ := readResources_append closed second
  have listed₁ : (Source.ofBytes first).entries =
      [⟨['b'], []⟩, ⟨"e..f".toList, ['1']⟩, ⟨['é'], ['ÿ']⟩] := by decide +kernel
  have listed₂ : (Source.ofBytes second).entries = [⟨['x'], ['y']⟩] := by decide +kernel
  have warned : (parse (.ofBytes first)).warnings ++
      (parse (.ofBytes second)).warnings.map (Warning.lower (first.count 10)) =
        [.malformedEscape 2 "12".toList, .malformedEscape 8 "D800".toList] := by decide +kernel
  have same₁ : (Source.ofBytes first).entries = entries₁ := Except.ok.inj read₁
  have same₂ : (Source.ofBytes second).entries = entries₂ := Except.ok.inj read₂
  obtain ⟨report₁, report₂, told₁, told₂, same, merged⟩ := stored (new TypeTable.empty)
  refine ⟨closed, ?_, ?_, ?_⟩
  · rw [parsed, warned, ← same₁, ← same₂, listed₁, listed₂]
    rfl
  · have counted₁ : report₁ = ⟨2, ["e..f".toList]⟩ := by
      rw [Except.ok.inj (told₁.symm.trans (readResources_ofBytes _ first).2), listed₁,
        insertAll_report]
      decide +kernel
    have counted₂ : report₂ = ⟨1, []⟩ := by
      rw [Except.ok.inj (told₂.symm.trans (readResources_ofBytes _ second).2), listed₂,
        insertAll_report]
      decide +kernel
    rw [merged, counted₁, counted₂]
    rfl
  · rw [show loaded.1 = _ from same]
    decide +kernel

end Store

end ResourceLookup
