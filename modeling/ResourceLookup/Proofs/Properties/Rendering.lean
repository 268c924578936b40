import ResourceLookup.Properties.Entry

/-!
# Renderings

The same entries can be written as a property stream in many ways. A rendering is one of them: it
says of each character how it is written and where a line is broken, and of each line what stands
around the entry on it. `Rendering.Legal` lists the rules. They leave room for every list of
entries: a character outside the basic plane can be written as it is, and all others by their codes.
-/

namespace ResourceLookup

namespace Rendering

/-- The two parts of an entry. Fewer characters may stand for themselves in a key. -/
inductive Part where
  | key
  | value
deriving DecidableEq, Repr

/-- The ways to write a character. -/
inductive Style where
  /-- As it is. -/
  | plain
  /-- As a space inside a value. -/
  | space
  /-- As it is, behind a backslash. -/
  | escaped
  /-- By the letter of a control character, behind a backslash. -/
  | letter
  /-- By its code in four digits, each of them in upper case or not. -/
  | code (u₁ u₂ u₃ u₄ : Bool)
deriving DecidableEq, Repr

/-- The letter of a control character. -/
def controlLetter? (c : Char) : Option Char :=
  if c = '\t' then some 't'
  else if c = '\n' then some 'n'
  else if c = '\r' then some 'r'
  else if c = '\x0c' then some 'f'
  else none

/-- A hexadecimal digit. -/
def hexDigit (upper : Bool) (n : Nat) : Char :=
  if upper then n.digitChar.toUpper else n.digitChar

namespace Style

/-- What is written for a character. -/
def text (c : Char) : Style → Text
  | plain => [c]
  | space => [c]
  | escaped => ['\\', c]
  | letter => '\\' :: (controlLetter? c).toList
  | code u₁ u₂ u₃ u₄ =>
    ['\\', 'u', hexDigit u₁ (c.toNat / 4096), hexDigit u₂ (c.toNat / 256 % 16),
      hexDigit u₃ (c.toNat / 16 % 16), hexDigit u₄ (c.toNat % 16)]

/-- Whether a character may be written in a certain way. -/
def Allows (part : Part) (c : Char) : Style → Prop
  | plain => Text.isBlank c = false ∧ c ≠ '\\' ∧ (part = .key → c ≠ '=' ∧ c ≠ ':')
  | space => part = .value ∧ c = ' '
  | escaped => Text.isBlank c = false ∧ c ∉ ['t', 'n', 'r', 'f', 'u']
  | letter => (controlLetter? c).isSome = true
  | code _ _ _ _ => c.toNat < 0x10000

instance (part : Part) (c : Char) : (s : Style) → Decidable (s.Allows part c)
  | plain => inferInstanceAs (Decidable (_ ∧ _ ∧ _))
  | space => inferInstanceAs (Decidable (_ ∧ _))
  | escaped => inferInstanceAs (Decidable (_ ∧ _))
  | letter => inferInstanceAs (Decidable (_ = true))
  | code _ _ _ _ => inferInstanceAs (Decidable (_ < _))

end Style

/-- The end of a line: a feed, and perhaps a return in front of it. -/
def lineEnd (carriage : Bool) : Text := if carriage then ['\r', '\n'] else ['\n']

/-- Spaces and tabs. -/
def IsPadding (t : Text) : Prop := ∀ c ∈ t, c = ' ' ∨ c = '\t'

instance (t : Text) : Decidable (IsPadding t) := List.decidableBAll _ t

/-- A backslash, a line end, and the padding that opens the next line. -/
structure Break where
  carriage : Bool
  padding : Text
deriving DecidableEq, Repr

def Break.text (b : Break) : Text := '\\' :: (lineEnd b.carriage ++ b.padding)

/-- A written character, with the breaks in front of it. -/
structure Glyph where
  breaks : List Break
  char : Char
  style : Style
deriving DecidableEq, Repr

namespace Glyph

/-- What stands for the character. -/
def spelling (g : Glyph) : Text := g.style.text g.char

def text (g : Glyph) : Text := g.breaks.flatMap Break.text ++ g.spelling

/-- A glyph follows the rules for its part. A space is no good behind a break: it would be taken for
padding. -/
structure Legal (part : Part) (g : Glyph) : Prop where
  breaks : ∀ b ∈ g.breaks, IsPadding b.padding
  style : g.style.Allows part g.char
  space : g.style = .space → g.breaks = []

/-- A glyph may stand at the beginning of its part. -/
structure Opens (part : Part) (g : Glyph) : Prop where
  breaks : g.breaks = []
  space : g.style ≠ .space
  mark : part = .key → g.style = .plain → g.char ≠ '#' ∧ g.char ≠ '!'

instance (part : Part) (g : Glyph) : Decidable (g.Legal part) :=
  decidable_of_iff ((∀ b ∈ g.breaks, IsPadding b.padding) ∧ g.style.Allows part g.char ∧
      (g.style = .space → g.breaks = []))
    ⟨fun ⟨breaks, style, space⟩ => ⟨breaks, style, space⟩,
      fun ⟨breaks, style, space⟩ => ⟨breaks, style, space⟩⟩

instance (part : Part) (g : Glyph) : Decidable (g.Opens part) :=
  decidable_of_iff (g.breaks = [] ∧ g.style ≠ .space ∧
      (part = .key → g.style = .plain → g.char ≠ '#' ∧ g.char ≠ '!'))
    ⟨fun ⟨breaks, space, mark⟩ => ⟨breaks, space, mark⟩,
      fun ⟨breaks, space, mark⟩ => ⟨breaks, space, mark⟩⟩

end Glyph

/-- Glyphs make up a part of an entry. -/
structure LegalPart (part : Part) (glyphs : List Glyph) : Prop where
  all : ∀ g ∈ glyphs, g.Legal part
  first : ∀ g ∈ glyphs.head?, g.Opens part
  last : ∀ g ∈ glyphs.getLast?, g.style ≠ .space

instance (part : Part) (glyphs : List Glyph) : Decidable (LegalPart part glyphs) :=
  decidable_of_iff ((∀ g ∈ glyphs, g.Legal part) ∧ (∀ g ∈ glyphs.head?, g.Opens part) ∧
      ∀ g ∈ glyphs.getLast?, g.style ≠ .space)
    ⟨fun ⟨all, first, last⟩ => ⟨all, first, last⟩, fun ⟨all, first, last⟩ => ⟨all, first, last⟩⟩

/-- An entry on a line, with padding at both ends and around the separator. -/
structure Pair where
  indent : Text
  key : List Glyph
  gap : Text
  separator : Char
  lead : Text
  value : List Glyph
  trail : Text
deriving DecidableEq, Repr

namespace Pair

def text (p : Pair) : Text :=
  p.indent ++ (p.key.flatMap Glyph.text ++ (p.gap ++ p.separator :: (p.lead ++
    (p.value.flatMap Glyph.text ++ p.trail))))

/-- The entry that is written. -/
def entry (p : Pair) : Entry := ⟨p.key.map (·.char), p.value.map (·.char)⟩

structure Legal (p : Pair) : Prop where
  key : LegalPart .key p.key
  value : LegalPart .value p.value
  separator : p.separator = '=' ∨ p.separator = ':'
  padding : IsPadding p.indent ∧ IsPadding p.gap ∧ IsPadding p.lead ∧ IsPadding p.trail

instance (p : Pair) : Decidable p.Legal :=
  decidable_of_iff (LegalPart .key p.key ∧ LegalPart .value p.value ∧
      (p.separator = '=' ∨ p.separator = ':') ∧
        IsPadding p.indent ∧ IsPadding p.gap ∧ IsPadding p.lead ∧ IsPadding p.trail)
    ⟨fun ⟨key, value, separator, padding⟩ => ⟨key, value, separator, padding⟩,
      fun ⟨key, value, separator, padding⟩ => ⟨key, value, separator, padding⟩⟩

end Pair

/-- A line of a property stream, or what a break has made several lines of. -/
inductive Line where
  | pair (p : Pair)
  | comment (indent : Text) (mark : Char) (text : Text)
  | blank (padding : Text)
deriving DecidableEq, Repr

namespace Line

/-- A line without its end. -/
def text : Line → Text
  | pair p => p.text
  | comment indent mark text => indent ++ mark :: text
  | blank padding => padding

/-- The entry on a line. -/
def contents : Line → Option Entry
  | pair p => some p.entry
  | comment _ _ _ => none
  | blank _ => none

def Legal : Line → Prop
  | pair p => p.Legal
  | comment indent mark text => IsPadding indent ∧ (mark = '#' ∨ mark = '!') ∧ '\n' ∉ text
  | blank padding => IsPadding padding

instance : (l : Line) → Decidable l.Legal
  | pair p => inferInstanceAs (Decidable p.Legal)
  | comment _ _ _ => inferInstanceAs (Decidable (_ ∧ _ ∧ _))
  | blank padding => inferInstanceAs (Decidable (IsPadding padding))

end Line

end Rendering

/-- A way to write entries: lines with their ends, and perhaps a last line that is not ended. -/
structure Rendering where
  lines : List (Rendering.Line × Bool)
  last : Option Rendering.Line
deriving DecidableEq, Repr

namespace Rendering

def text (r : Rendering) : Text :=
  r.lines.flatMap (fun l => l.1.text ++ lineEnd l.2) ++ (r.last.map Line.text).getD []

/-- The entries that are written, in order. -/
def entries (r : Rendering) : List Entry :=
  (r.lines.map (·.1) ++ r.last.toList).filterMap Line.contents

def Legal (r : Rendering) : Prop := ∀ l ∈ r.lines.map (·.1) ++ r.last.toList, l.Legal

instance (r : Rendering) : Decidable r.Legal := List.decidableBAll _ _

section Canonical

/-- A character by its code, or else as it is. -/
def canonicalGlyph (c : Char) : Glyph :=
  ⟨[], c, if c.toNat < 0x10000 then .code false false false false else .plain⟩

/-- Every character that means something to a reader has a code of four digits. -/
theorem allows_canonicalGlyph (part : Part) (c : Char) :
    (canonicalGlyph c).style.Allows part c := by
  rw [canonicalGlyph]
  by_cases basic : c.toNat < 0x10000
  · rw [if_pos basic]
    exact basic
  · rw [if_neg basic]
    have other {d : Char} (small : d.toNat < 0x10000) : c ≠ d := by
      rintro rfl
      exact basic small
    refine ⟨?_, other (by decide), fun _ => ?_⟩
    · simp only [Text.isBlank, Bool.or_eq_false_iff, Bool.and_eq_false_iff, decide_eq_false_iff_not,
        beq_eq_false_iff_ne]
      omega
    · exact ⟨other (by decide), other (by decide)⟩

theorem legalPart_canonical (part : Part) (t : Text) :
    LegalPart part (t.map canonicalGlyph) := by
  have noSpace (c : Char) : (canonicalGlyph c).style ≠ .space := by
    rw [canonicalGlyph]
    split <;> simp
  refine ⟨?_, ?_, ?_⟩
  · intro g hg
    obtain ⟨c, -, rfl⟩ := List.mem_map.1 hg
    exact ⟨by simp [canonicalGlyph], allows_canonicalGlyph part c, fun _ => rfl⟩
  · intro g hg
    rw [List.head?_map, Option.mem_def, Option.map_eq_some_iff] at hg
    obtain ⟨c, -, rfl⟩ := hg
    refine ⟨rfl, noSpace c, fun _ plain => ?_⟩
    have high : ¬ c.toNat < 0x10000 := by
      intro basic
      rw [canonicalGlyph, if_pos basic] at plain
      cases plain
    constructor <;> (intro same; exact high (by rw [show c = _ from same]; decide))
  · intro g hg
    rw [List.getLast?_map, Option.mem_def, Option.map_eq_some_iff] at hg
    obtain ⟨c, -, rfl⟩ := hg
    exact noSpace c

/-- The line of an entry without breaks and padding. -/
def canonicalPair (e : Entry) : Pair :=
  ⟨[], e.key.map canonicalGlyph, [], '=', [], e.value.map canonicalGlyph, []⟩

theorem entry_canonicalPair (e : Entry) : (canonicalPair e).entry = e := by
  have chars (t : Text) : (t.map canonicalGlyph).map (·.char) = t := by
    rw [List.map_map]
    exact List.map_id t
  simp only [canonicalPair, Pair.entry, chars]

/-- Whatever the entries, there is a way to write them. -/
theorem exists_legal (entries : List Entry) :
    ∃ r : Rendering, r.Legal ∧ r.entries = entries := by
  refine ⟨⟨entries.map fun e => (.pair (canonicalPair e), false), none⟩, ?_, ?_⟩
  · intro l hl
    simp only [List.map_map, Option.toList_none, List.append_nil, List.mem_map] at hl
    obtain ⟨e, -, rfl⟩ := hl
    have nothing : IsPadding [] := by decide
    exact ⟨legalPart_canonical .key e.key, legalPart_canonical .value e.value, .inl rfl,
      nothing, nothing, nothing, nothing⟩
  · rw [Rendering.entries, List.map_map, Option.toList_none, List.append_nil, List.filterMap_map]
    have same : (Line.contents ∘ ((·.1) ∘ fun e => (Line.pair (canonicalPair e), false))) = some :=
      funext fun e => congrArg some (entry_canonicalPair e)
    rw [same]
    exact List.filterMap_some

end Canonical

end Rendering

end ResourceLookup
