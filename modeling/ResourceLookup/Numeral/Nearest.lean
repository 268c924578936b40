/-!
# Rounding to binary floating point

A positive fraction is rounded to the nearest 64-bit floating-point number, a tie to the even
neighbour. The neighbours are multiples of a power of two: the one that leaves 53 significant
bits, but never less than the smallest positive number, 2 ^ -1074. The patterns of positive
numbers are in the order of their values, so that rounding up past the last multiple leads to
the right pattern by itself.
-/

namespace ResourceLookup.Binary64

/-- The quotient of two numbers, rounded to the nearest one, a tie to the even one. -/
def roundDiv (num den : Nat) : Nat :=
  let q := num / den
  let twice := 2 * (num % den)
  if den < twice ∨ (twice = den ∧ q % 2 = 1) then q + 1 else q

/-- The quotient of a fraction by a power of two, rounded. -/
def roundAt (num den : Nat) (exponent : Int) : Nat :=
  roundDiv (num <<< (-exponent).toNat) (den <<< exponent.toNat)

/-- The greatest power of two that is at most a positive fraction. -/
def magnitude (num den : Nat) : Int :=
  let guess : Int := num.log2 - den.log2
  if den <<< guess.toNat ≤ num <<< (-guess).toNat then guess else guess - 1

/-- The spacing of the numbers near a positive fraction, as a power of two. -/
def spacing (num den : Nat) : Int := max (-1074) (magnitude num den - 52)

/-- The pattern of infinity. -/
def infinityBits : Nat := 0x7FF <<< 52

/-- The pattern of the number nearest to a fraction. -/
def nearestBits (num den : Nat) : Nat :=
  if num = 0 then 0
  else
    let exponent := spacing num den
    min infinityBits (((exponent + 1074).toNat <<< 52) + roundAt num den exponent)

/-- A number with its sign as a floating-point number. -/
def ofPattern (negative : Bool) (bits : Nat) : Float :=
  .ofBits (UInt64.ofNat (if negative then (1 <<< 63) + bits else bits))

/-- The floating-point number nearest to a fraction with a sign. -/
def nearest (negative : Bool) (num den : Nat) : Float := ofPattern negative (nearestBits num den)

/-- Infinity with a sign. -/
def infinity (negative : Bool) : Float := ofPattern negative infinityBits

/-- A value that is no number. -/
def notANumber : Float := .ofBits 0x7FF8000000000000

example : nearestBits 1 1 = 0x3FF0000000000000 := by decide +kernel

example : nearestBits 1 10 = 0x3FB999999999999A := by decide +kernel

example : nearestBits (2 ^ 53 + 1) 1 = nearestBits (2 ^ 53) 1 := by decide +kernel

example : nearestBits 1 (2 ^ 1074) = 1 ∧ nearestBits 1 (2 ^ 1075) = 0 := by decide +kernel

example : nearestBits (2 ^ 1024) 1 = infinityBits := by decide +kernel

end ResourceLookup.Binary64
