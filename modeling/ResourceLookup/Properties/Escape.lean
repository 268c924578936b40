import ResourceLookup.Text.Basic

/-!
# Escapes

In a property a backslash gives the next character another meaning. `\t`, `\n`, `\r` and `\f`
stand for the four control characters, `\u` with four hexadecimal digits for the character with
that code, and any other character behind a backslash stands for itself. A backslash at the end
stands for nothing.
-/

namespace ResourceLookup.Escape

/-- The character that a single letter behind a backslash stands for. -/
def ofLetter (c : Char) : Char :=
  if c = 't' then '\t'
  else if c = 'n' then '\n'
  else if c = 'r' then '\r'
  else if c = 'f' then '\x0c'
  else c

/-- The value of a hexadecimal digit in either case. -/
def hexValue? (c : Char) : Option Nat :=
  if '0' ≤ c ∧ c ≤ '9' then some (c.toNat - '0'.toNat)
  else if 'a' ≤ c ∧ c ≤ 'f' then some (c.toNat - 'a'.toNat + 10)
  else if 'A' ≤ c ∧ c ≤ 'F' then some (c.toNat - 'A'.toNat + 10)
  else none

/-- The number that hexadecimal digits write, the most significant first. -/
def hexNumber? (digits : Text) : Option Nat :=
  digits.foldlM (fun n c => (hexValue? c).map (16 * n + ·)) 0

/-- The character with a code, if there is one; the codes of surrogates have none. -/
def character? (code : Nat) : Option Char :=
  if h : code.isValidChar then some (Char.ofNatAux code h) else none

/-- The character that the digits behind a `\u` stand for. -/
def ofDigits? (digits : Text) : Option Char := (hexNumber? digits).bind character?

/-- Replaces every escape by the character it stands for. The error is the text, of four
characters at most, that follows the first `\u` which stands for none. -/
def decode : Text → Except Text Text
  | [] => .ok []
  | c :: rest =>
    if c ≠ '\\' then (c :: ·) <$> decode rest
    else match rest with
      | [] => .ok []
      | e :: rest =>
        if e ≠ 'u' then (ofLetter e :: ·) <$> decode rest
        else match rest with
          | d₁ :: d₂ :: d₃ :: d₄ :: rest =>
            match ofDigits? [d₁, d₂, d₃, d₄] with
            | some character => (character :: ·) <$> decode rest
            | none => .error [d₁, d₂, d₃, d₄]
          | digits => .error digits

end ResourceLookup.Escape
