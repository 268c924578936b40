import ResourceLookup.Lookup.Search
import ResourceLookup.Proofs.Properties.Lines

/-!
# Queries in slices

The segments of a query need not be cut apart before a search. It may as well go through the bytes
of the query, look for the byte of the next tight delimiter, and take slices of what is before and
behind it. `Cuts` does so by counting where the next segment starts. No byte of another character
looks like the delimiter, and so `Cuts.toList_eq` can say that the slices are exactly the anchors of
the query in writing, one for each segment.
-/

namespace ResourceLookup

/-- Consecutive bytes of a text in UTF-8. -/
abbrev Slice := List UInt8

namespace Slice

/-- The byte of the tight delimiter. -/
def delimiter : UInt8 := 0x2E

/-- Splits at the first tight delimiter. -/
def splitHead (rest : Slice) : Slice × Option Slice :=
  match rest.idxOf? delimiter with
  | some place => (rest.take place, some (rest.drop (place + 1)))
  | none => (rest, none)

/-- Puts a slice behind another one. Between them goes a tight delimiter, unless there is nothing in
front. -/
def join (front behind : Slice) : Slice :=
  if front.isEmpty then behind else front ++ delimiter :: behind

/-- The bytes of segments with tight delimiters between them. -/
def ofSegments (segments : List Text) : Slice := Text.utf8 (Lookup.path segments)

/-- The bytes of the segments that are left, if any are. -/
def ofRest? : List Text → Option Slice
  | [] => none
  | segment :: more => some (ofSegments (segment :: more))

end Slice

/-- A segment with what is behind it and with what is consumed when it is taken, in slices. -/
structure Cut where
  head : Slice
  tail : Option Slice
  consumed : Slice
deriving DecidableEq, Repr

/-- The slices of an anchor, if some segments come before those that it skips. -/
def Cut.ofAnchor (before : List Text) (a : Anchor) : Cut :=
  ⟨Text.utf8 a.head, Slice.ofRest? a.tail, Slice.ofSegments (before ++ a.consumed)⟩

/-- A walk through the segments of a slice: where the next one starts, if there is another one. -/
structure Cuts where
  key : Slice
  offset : Option Nat
deriving DecidableEq, Repr

namespace Cuts

/-- The walk from the beginning of a slice. -/
def start (key : Slice) : Cuts := ⟨key, some 0⟩

/-- The next segment, and the walk behind it. -/
def next? (cuts : Cuts) : Option (Cut × Cuts) :=
  cuts.offset.map fun start =>
    let (head, tail) := Slice.splitHead (cuts.key.drop start)
    let stop := start + head.length
    (⟨head, tail, cuts.key.take stop⟩, ⟨cuts.key, tail.map fun _ => stop + 1⟩)

/-- An upper bound on how many segments are still to come. -/
def room (cuts : Cuts) : Nat := cuts.offset.elim 0 fun start => cuts.key.length - start + 1

theorem room_lt_of_next? {cuts rest : Cuts} {cut : Cut} (h : cuts.next? = some (cut, rest)) :
    rest.room < cuts.room := by
  obtain ⟨key, offset⟩ := cuts
  cases offset with
  | none => cases h
  | some start =>
    obtain ⟨-, rfl⟩ := Prod.mk.inj (Option.some.inj h)
    cases found : (key.drop start).idxOf? Slice.delimiter with
    | none => simp [room]
    | some place =>
      obtain ⟨within, -⟩ := List.idxOf?_eq_some_iff.1 found
      rw [List.length_drop] at within
      simp only [room, Option.map_some, Option.elim_some, List.length_take, List.length_drop]
      omega

/-- All that a walk comes to. -/
def toList (cuts : Cuts) : List Cut :=
  match _h : cuts.next? with
  | none => []
  | some (cut, rest) => cut :: rest.toList
termination_by cuts.room
decreasing_by exact room_lt_of_next? _h

theorem toList_of_offset_eq_none (key : Slice) : toList ⟨key, none⟩ = [] := by
  rw [toList]
  rfl

theorem toList_of_next? {cuts rest : Cuts} {cut : Cut} (h : cuts.next? = some (cut, rest)) :
    cuts.toList = cut :: rest.toList := by
  rw [toList]
  split
  · rename_i ended
    cases h.symm.trans ended
  · rename_i other
    obtain ⟨rfl, rfl⟩ := Prod.mk.inj (Option.some.inj (h.symm.trans other))
    rfl

end Cuts

/-- The anchor of each segment skips those before it and leaves those behind it. -/
theorem Anchor.getElem?_all (segments : List Text) (i : Nat) :
    (all segments)[i]? =
      segments[i]?.map fun segment => ⟨segments.take i, segment, segments.drop (i + 1)⟩ := by
  induction segments generalizing i with
  | nil => rfl
  | cons segment rest ih =>
    cases i with
    | zero => rfl
    | succ i => simp [all, ih, skip, Function.comp_def]

namespace Lookup

/-- Segments with a tight delimiter behind each. -/
def opening (before : List Text) : Text := before.flatMap (· ++ [Binding.tight.delimiter])

variable {before rest : List Text}

@[simp] theorem opening_nil : opening [] = [] := rfl

theorem opening_cons (segment : Text) (before : List Text) :
    opening (segment :: before) = segment ++ '.' :: opening before := by
  simp [opening, Binding.delimiter]

@[simp] theorem path_singleton (segment : Text) : path [segment] = segment :=
  List.intercalate_singleton

theorem path_cons (segment : Text) (nonempty : rest ≠ []) :
    path (segment :: rest) = segment ++ '.' :: path rest := by
  rw [path, List.intercalate_cons_of_ne_nil nonempty, List.append_assoc]
  rfl

theorem path_append (before : List Text) (nonempty : rest ≠ []) :
    path (before ++ rest) = opening before ++ path rest := by
  induction before with
  | nil => rfl
  | cons segment before ih =>
    rw [List.cons_append, path_cons segment (List.append_ne_nil_of_right_ne_nil _ nonempty), ih,
      opening_cons, List.append_assoc, List.cons_append]

theorem opening_eq (nonempty : before ≠ []) : opening before = path before ++ ['.'] := by
  induction before with
  | nil => exact absurd rfl nonempty
  | cons segment before ih =>
    rw [opening_cons]
    cases before with
    | nil => simp
    | cons next before =>
      rw [ih (by simp), path_cons segment (by simp), List.append_assoc, List.cons_append]

/-- Only a path that starts with an empty segment can be empty itself. -/
theorem path_ne_nil (nonempty : before ≠ []) (first : before.head? ≠ some []) :
    path before ≠ [] := by
  obtain ⟨segment, before, rfl⟩ := List.exists_cons_of_ne_nil nonempty
  have proper : segment ≠ [] := by simpa using first
  cases before with
  | nil => simpa using proper
  | cons next before => simp [path_cons segment (List.cons_ne_nil next before)]

end Lookup

namespace Slice

variable {segment : Text} {before rest : List Text}

theorem delimiter_mem_utf8_iff {t : Text} : delimiter ∈ Text.utf8 t ↔ '.' ∈ t :=
  Text.mem_utf8_iff (by decide) (by decide)

theorem utf8_tight_cons (t : Text) : Text.utf8 ('.' :: t) = delimiter :: Text.utf8 t := rfl

theorem ofSegments_cons (segment : Text) (nonempty : rest ≠ []) :
    ofSegments (segment :: rest) = Text.utf8 segment ++ delimiter :: ofSegments rest := by
  rw [ofSegments, Lookup.path_cons segment nonempty, Text.utf8_append, utf8_tight_cons]
  rfl

theorem ofSegments_append (before : List Text) (nonempty : rest ≠ []) :
    ofSegments (before ++ rest) = Text.utf8 (Lookup.opening before) ++ ofSegments rest := by
  rw [ofSegments, Lookup.path_append before nonempty, Text.utf8_append]
  rfl

/-- What is left is empty only if nothing is left. -/
theorem ofRest?_of_ne_nil (nonempty : rest ≠ []) : ofRest? rest = some (ofSegments rest) := by
  obtain ⟨segment, rest, rfl⟩ := List.exists_cons_of_ne_nil nonempty
  rfl

/-- What is left is a delimiter and a text behind it, or nothing. -/
theorem exists_ofRest?_eq (nonempty : before ≠ []) (rest : List Text) :
    ∃ tail : Option Text, ofRest? rest = tail.map Text.utf8 ∧
      Lookup.path before ++ tail.elim [] ('.' :: ·) = Lookup.path (before ++ rest) := by
  cases rest with
  | nil => exact ⟨none, rfl, by simp⟩
  | cons segment rest =>
    refine ⟨some (Lookup.path (segment :: rest)), rfl, ?_⟩
    rw [Lookup.path_append before (List.cons_ne_nil segment rest), Lookup.opening_eq nonempty,
      List.append_assoc]
    rfl

theorem idxOf?_append {α : Type} [BEq α] [LawfulBEq α] {separator : α} {front : List α}
    (absent : separator ∉ front) (behind : List α) :
    (front ++ separator :: behind).idxOf? separator = some front.length := by
  induction front with
  | nil => simp [List.idxOf?_cons]
  | cons a front ih =>
    rw [List.mem_cons, not_or] at absent
    simp [List.idxOf?_cons, ih absent.2, Ne.symm absent.1]

/-- The first delimiter is the one behind the first segment. -/
theorem splitHead_ofSegments (plain : '.' ∉ segment) (rest : List Text) :
    splitHead (ofSegments (segment :: rest)) = (Text.utf8 segment, ofRest? rest) := by
  have absent : delimiter ∉ Text.utf8 segment := fun mem => plain (delimiter_mem_utf8_iff.1 mem)
  cases rest with
  | nil =>
    have alone : ofSegments [segment] = Text.utf8 segment := by
      rw [ofSegments, Lookup.path_singleton]
    rw [alone, splitHead, List.idxOf?_eq_none_iff.2 absent]
    rfl
  | cons next rest =>
    rw [ofSegments_cons segment (by simp), splitHead, idxOf?_append absent]
    simp [ofRest?]

/-- What is joined is what stands side by side in the query. -/
theorem join_ofSegments (first : before.head? ≠ some []) (nonempty : rest ≠ []) :
    join (ofSegments before) (ofSegments rest) = ofSegments (before ++ rest) := by
  by_cases start : before = []
  · subst start
    rfl
  · have proper : ofSegments before ≠ [] := by
      rw [ofSegments, ne_eq, Text.utf8_eq_nil_iff]
      exact Lookup.path_ne_nil start first
    rw [join, if_neg (by simpa using proper), ofSegments_append before nonempty,
      Lookup.opening_eq start, Text.utf8_append, List.append_assoc]
    rfl

end Slice

namespace Cuts

variable {segment : Text}

/-- A walk that is about to come to a segment cuts it out and goes on behind the delimiter. -/
theorem next?_ofSegments (before : List Text) (plain : '.' ∉ segment) (rest : List Text) :
    next? ⟨Slice.ofSegments (before ++ segment :: rest),
        some (Text.utf8 (Lookup.opening before)).length⟩ =
      some (Cut.ofAnchor before ⟨[], segment, rest⟩,
        ⟨Slice.ofSegments (before ++ segment :: rest), (Slice.ofRest? rest).map fun _ =>
          (Text.utf8 (Lookup.opening (before ++ [segment]))).length⟩) := by
  have key := Slice.ofSegments_append before (List.cons_ne_nil segment rest)
  have behind : (Slice.ofSegments (before ++ segment :: rest)).drop
      (Text.utf8 (Lookup.opening before)).length = Slice.ofSegments (segment :: rest) := by
    rw [key, List.drop_left]
  have upTo : (Slice.ofSegments (before ++ segment :: rest)).take
      ((Text.utf8 (Lookup.opening before)).length + (Text.utf8 segment).length) =
        Slice.ofSegments (before ++ [segment]) := by
    rw [key, List.take_length_add_append, Slice.ofSegments_append before (by simp)]
    congr 1
    cases rest with
    | nil => simp [Slice.ofSegments]
    | cons next rest =>
      rw [Slice.ofSegments_cons segment (List.cons_ne_nil next rest), List.take_left,
        Slice.ofSegments, Lookup.path_singleton]
  have further : (Text.utf8 (Lookup.opening before)).length + (Text.utf8 segment).length + 1 =
      (Text.utf8 (Lookup.opening (before ++ [segment]))).length := by
    simp [Lookup.opening, Binding.delimiter, Nat.add_assoc]
    rfl
  simp only [next?, Option.map_some, behind, Slice.splitHead_ofSegments plain, upTo, further]
  rfl

/-- A walk comes to the segments that are left, one after the other. -/
theorem toList_eq (before : List Text) {rest : List Text} (nonempty : rest ≠ [])
    (plain : ∀ segment ∈ rest, '.' ∉ segment) :
    toList ⟨Slice.ofSegments (before ++ rest), some (Text.utf8 (Lookup.opening before)).length⟩ =
      (Anchor.all rest).map (Cut.ofAnchor before) := by
  induction rest generalizing before with
  | nil => exact absurd rfl nonempty
  | cons segment rest ih =>
    obtain ⟨own, others⟩ := List.forall_mem_cons.1 plain
    have skipped : Cut.ofAnchor before ∘ Anchor.skip segment =
        Cut.ofAnchor (before ++ [segment]) := by
      funext a
      simp [Cut.ofAnchor, Anchor.skip, Anchor.consumed]
    rw [toList_of_next? (next?_ofSegments before own rest), Anchor.all, List.map_cons,
      List.map_map, skipped]
    congr 1
    cases rest with
    | nil => exact toList_of_offset_eq_none _
    | cons next rest =>
      have later := ih (before ++ [segment]) (by simp) others
      rw [List.append_assoc, List.singleton_append] at later
      exact later

/-- From the beginning on these are all the segments. -/
theorem toList_start {rest : List Text} (nonempty : rest ≠ [])
    (plain : ∀ segment ∈ rest, '.' ∉ segment) :
    (start (Slice.ofSegments rest)).toList = (Anchor.all rest).map (Cut.ofAnchor []) :=
  toList_eq [] nonempty plain

theorem toList_utf8 (t : Text) :
    (start (Text.utf8 t)).toList = (Anchor.all (t.splitOn '.')).map (Cut.ofAnchor []) := by
  have bytes : Text.utf8 t = Slice.ofSegments (t.splitOn '.') :=
    congrArg Text.utf8 (List.intercalate_splitOn _).symm
  rw [bytes]
  exact toList_start (List.splitOn_ne_nil _ _) fun _ piece => not_mem_of_mem_splitOn piece

variable {t : Text}

theorem length_toList_utf8 (t : Text) :
    (start (Text.utf8 t)).toList.length = (t.splitOn '.').length := by
  rw [toList_utf8, List.length_map, ← List.length_map (·.head), Anchor.map_head_all]

/-- For each piece of a text there is a cut at its place. It takes the text up to the end of the
piece, and what it leaves is the rest of the text. -/
theorem exists_cut_of_piece {i : Nat} {piece : Text} (found : (t.splitOn '.')[i]? = some piece) :
    ∃ tail : Option Text,
      (start (Text.utf8 t)).toList[i]? =
        some ⟨Text.utf8 piece, tail.map Text.utf8,
          Text.utf8 (Lookup.path ((t.splitOn '.').take (i + 1)))⟩ ∧
      Lookup.path ((t.splitOn '.').take (i + 1)) ++ tail.elim [] ('.' :: ·) = t := by
  have begun : (t.splitOn '.').take (i + 1) ≠ [] := by simp
  obtain ⟨tail, left, behind⟩ := Slice.exists_ofRest?_eq begun ((t.splitOn '.').drop (i + 1))
  rw [List.take_append_drop] at behind
  refine ⟨tail, ?_, behind.trans (List.intercalate_splitOn _)⟩
  rw [toList_utf8, List.getElem?_map, Anchor.getElem?_all, found, ← left]
  simp [Cut.ofAnchor, Anchor.consumed, Slice.ofSegments, List.take_add_one, found]

end Cuts

end ResourceLookup
