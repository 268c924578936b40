import ResourceLookup.Numeral.Integer
import ResourceLookup.Numeral.Nearest

/-!
# Decimal numerals

A decimal numeral is an optional sign, digits with at most one point among or around them, at
least one digit in all, and an optional exponent: `e` or `E`, an optional sign and digits. The
words `inf`, `infinity` and `nan` in any case, with an optional sign, are numerals too. A
numeral is read as the floating-point number nearest to its value.
-/

namespace ResourceLookup.Numeral

/-- An exponent beyond which further digits make no difference. -/
def exponentLimit : Nat := 0x10000

/-- The number that the digits of an exponent write; no digit counts after one that goes beyond
the limit. -/
def ofExponentDigits (digits : Text) : Nat :=
  digits.foldl
    (fun n c => if n < exponentLimit then 10 * n + (c.toNat - '0'.toNat) else n) 0

/-- Reads the exponent of a numeral. -/
def exponent? (t : Text) : Option Int :=
  let (negative, digits) := splitSign t
  if isDigits digits then
    some (if negative then -(ofExponentDigits digits : Int) else ofExponentDigits digits)
  else none

/-- Cuts a point and the digits behind it off. -/
def splitFraction : Text → Text × Text
  | [] => ([], [])
  | c :: rest =>
    if c = '.' then (rest.takeWhile Char.isDigit, rest.dropWhile Char.isDigit) else ([], c :: rest)

/-- The digits of a numeral as a number, and the power of ten that it is multiplied by. -/
def scientific? (t : Text) : Option (Nat × Int) :=
  let whole := t.takeWhile Char.isDigit
  let (fraction, rest) := splitFraction (t.dropWhile Char.isDigit)
  let digits := whole ++ fraction
  let places : Int := fraction.length
  if digits.isEmpty then none
  else
    match rest with
    | [] => some (ofDigits digits, -places)
    | c :: rest =>
      if c = 'e' ∨ c = 'E' then (exponent? rest).map fun e => (ofDigits digits, e - places)
      else none

/-- A number of decades that no positive floating-point number reaches in either direction: what
is greater is infinite, and what is smaller is zero. -/
def decadeLimit : Int := 400

/-- The floating-point number nearest to `digits` times ten to the `exponent`. What is far too
great or too small for a floating-point number is not computed. -/
def nearestDecimal (negative : Bool) (digits : Nat) (exponent : Int) : Float :=
  let decades : Int := (Nat.toDigits 10 digits).length + exponent
  if digits = 0 then Binary64.nearest negative 0 1
  else if decadeLimit < decades then Binary64.infinity negative
  else if decades < -decadeLimit then Binary64.nearest negative 0 1
  else
    Binary64.nearest negative (digits * Nat.pow 10 exponent.toNat)
      (Nat.pow 10 (-exponent).toNat)

/-- The value of a word that stands for no finite number. -/
def word? (negative : Bool) (t : Text) : Option Float :=
  let lower := t.map Char.toLower
  if lower = "inf".toList ∨ lower = "infinity".toList then some (Binary64.infinity negative)
  else if lower = "nan".toList then some Binary64.notANumber
  else none

/-- The floating-point number that a decimal numeral writes. -/
def float? (t : Text) : Option Float :=
  let (negative, rest) := splitSign t
  match scientific? rest with
  | some (digits, exponent) => some (nearestDecimal negative digits exponent)
  | none => word? negative rest

end ResourceLookup.Numeral
