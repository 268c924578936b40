import ResourceLookup.Key.Binding
import ResourceLookup.Text.Basic

/-!
# Tokens and steps

A key is read as delimiters and segments; a segment is a longest run of characters that are
neither delimiters nor blank. A blank belongs to no token and is kept as a stray character.

The steps of a key pair each segment with its binding: that of the delimiter directly before it,
and the tight one where a segment opens the text.
-/

namespace ResourceLookup

/-- A piece of a key. -/
inductive Token where
  /-- The delimiter that writes a binding. -/
  | delimiter (binding : Binding)
  /-- A run of characters that are neither delimiters nor blank. -/
  | segment (text : Text)
  /-- A blank, which no key may contain. -/
  | stray (c : Char)
deriving DecidableEq, Repr

namespace Token

/-- Whether a token may stand in a key. -/
def isProper : Token → Bool
  | stray _ => false
  | _ => true

/-- Puts a segment character in front of tokens, lengthening a segment that comes first. -/
def consChar (c : Char) : List Token → List Token
  | segment text :: rest => segment (c :: text) :: rest
  | rest => segment [c] :: rest

/-- The tokens of a text, in order. -/
def scan : Text → List Token
  | [] => []
  | c :: rest =>
    match Binding.ofDelimiter? c with
    | some binding => delimiter binding :: scan rest
    | none => if Text.isBlank c then stray c :: scan rest else consChar c (scan rest)

/-- The characters of a token. -/
def text : Token → Text
  | delimiter binding => [binding.delimiter]
  | segment t => t
  | stray c => [c]

@[simp] theorem flatMap_text_consChar (c : Char) (ts : List Token) :
    (consChar c ts).flatMap text = c :: ts.flatMap text := by
  unfold consChar
  split <;> simp [text]

/-- Scanning loses nothing: the tokens spell the text. -/
theorem flatMap_text_scan (t : Text) : (scan t).flatMap text = t := by
  induction t with
  | nil => rfl
  | cons c rest ih =>
    rw [scan]
    split
    · rename_i binding h
      simp [text, ih, Binding.ofDelimiter?_eq_some_iff.1 h]
    · split <;> simp [text, ih]

@[simp] theorem all_isProper_consChar (c : Char) (ts : List Token) :
    (consChar c ts).all isProper = ts.all isProper := by
  unfold consChar
  split <;> simp [isProper]

/-- A text scans without stray characters exactly when none of its characters is blank. -/
theorem all_isProper_scan (t : Text) : (scan t).all isProper = t.all (!Text.isBlank ·) := by
  induction t with
  | nil => rfl
  | cons c rest ih =>
    rw [scan]
    split
    · rename_i binding h
      obtain rfl := Binding.ofDelimiter?_eq_some_iff.1 h
      cases binding <;> simp [isProper, ih, Binding.delimiter, Text.isBlank]
    · split <;> simp_all [isProper]

end Token

/-- A segment together with its binding to what is above it. -/
structure Step where
  binding : Binding
  segment : Text
deriving DecidableEq, Repr

namespace Step

/-- The steps that tokens spell when the next segment is bound by `binding` unless a delimiter
comes first. -/
def ofTokens (binding : Binding) : List Token → List Step
  | [] => []
  | .delimiter next :: rest => ofTokens next rest
  | .segment text :: rest => ⟨binding, text⟩ :: ofTokens .tight rest
  | .stray _ :: rest => ofTokens binding rest

/-- The steps that a text spells. -/
def ofText (t : Text) : List Step := ofTokens .tight (Token.scan t)

/-- A step as written below another one. -/
def text (s : Step) : Text := s.binding.delimiter :: s.segment

/-- The text of a path of steps from the root, where a tight first step needs no delimiter. -/
def pathText : List Step → Text
  | [] => []
  | ⟨.tight, segment⟩ :: rest => segment ++ rest.flatMap text
  | ⟨.loose, segment⟩ :: rest => Binding.loose.delimiter :: segment ++ rest.flatMap text

end Step

end ResourceLookup
