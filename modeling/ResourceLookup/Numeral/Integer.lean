import ResourceLookup.Text.Basic

/-!
# Integer numerals

An integer numeral is an optional sign and ASCII digits, at least one. It is read only if the
number fits into 64 bits with sign.
-/

namespace ResourceLookup.Numeral

/-- The number that digits write, the most significant first. -/
def ofDigits (digits : Text) : Nat :=
  digits.foldl (fun n c => 10 * n + (c.toNat - '0'.toNat)) 0

/-- Whether a text consists of digits, at least one. -/
def isDigits (t : Text) : Bool := !t.isEmpty && t.all Char.isDigit

/-- Cuts a sign off, and tells whether it is negative. -/
def splitSign : Text → Bool × Text
  | [] => (false, [])
  | c :: rest =>
    if c = '-' then (true, rest) else if c = '+' then (false, rest) else (false, c :: rest)

/-- The number that an integer numeral writes. -/
def integer? (t : Text) : Option Int :=
  let (negative, digits) := splitSign t
  if isDigits digits then
    some (if negative then -(ofDigits digits : Int) else ofDigits digits)
  else none

/-- The number that an integer numeral writes, if it fits into 64 bits. -/
def int64? (t : Text) : Option Int64 :=
  (integer? t).bind fun n =>
    if Int64.minValue.toInt ≤ n ∧ n ≤ Int64.maxValue.toInt then some (Int64.ofInt n) else none

end ResourceLookup.Numeral
