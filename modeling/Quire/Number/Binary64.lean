/-!
# Double-precision numbers

The values of the 64-bit binary format, without arithmetic: a number is what the nearest rounding
of an exact ratio gives. All of it is computed on natural numbers.
-/

namespace Quire

/-- A finite value is `significand * 2 ^ exponent`, up to its sign. Rounding yields significands
below `2 ^ 53` and exponents from `-1074` to `971`, and full significands above the least
exponent. -/
inductive Binary64 where
  | finite (negative : Bool) (significand : Nat) (exponent : Int)
  | infinite (negative : Bool)
  | notANumber
  deriving DecidableEq, Repr

namespace Binary64

def leastExponent : Int := -1074
def greatestExponent : Int := 971

def zero (negative : Bool) : Binary64 := .finite negative 0 leastExponent

/-- Nearest integer to `num / den`, a half to the even neighbour. -/
def roundedQuotient (num den : Nat) : Nat :=
  let quotient := num / den
  let twice := 2 * (num % den)
  if twice < den || (twice == den && quotient % 2 == 0) then quotient else quotient + 1

/-- `num / den ≥ 2 ^ power`. -/
def reachesPower (num den : Nat) (power : Int) : Bool :=
  if 0 ≤ power then den * Nat.pow 2 power.toNat ≤ num else den ≤ num * Nat.pow 2 (-power).toNat

/-- The greatest power of two that `num / den` reaches. -/
def floorLog2 (num den : Nat) : Int :=
  let estimate : Int := (num.log2 : Int) - (den.log2 : Int)
  if reachesPower num den estimate then estimate else estimate - 1

/-- Nearest integer to `num / (den * 2 ^ exponent)`. -/
def roundedAt (num den : Nat) (exponent : Int) : Nat :=
  if 0 ≤ exponent then roundedQuotient num (den * Nat.pow 2 exponent.toNat)
  else roundedQuotient (num * Nat.pow 2 (-exponent).toNat) den

/-- The double nearest to `num / den`, for `0 < den`. Ties go to the even significand, and what
rounds past the greatest double is infinite. -/
def ofRatio (negative : Bool) (num den : Nat) : Binary64 :=
  if num = 0 then zero negative
  else
    let exponent := max leastExponent (floorLog2 num den - 52)
    let significand := roundedAt num den exponent
    let carried := significand == Nat.pow 2 53
    let exponent := if carried then exponent + 1 else exponent
    let significand := if carried then Nat.pow 2 52 else significand
    if greatestExponent < exponent then .infinite negative
    else .finite negative significand exponent

/-- The count of decimal digits of a number, one for zero. -/
def digitCount (n : Nat) : Nat := (Nat.toDigits 10 n).length

/-- The double nearest to `digits * 10 ^ power`. Powers that leave the format for certain are not
computed. -/
def ofDecimal (negative : Bool) (digits : Nat) (power : Int) : Binary64 :=
  let magnitude := power + digitCount digits
  if digits = 0 || magnitude < -330 then zero negative
  else if 320 < magnitude then .infinite negative
  else if 0 ≤ power then ofRatio negative (digits * Nat.pow 10 power.toNat) 1
  else ofRatio negative digits (Nat.pow 10 (-power).toNat)

def ofNat (n : Nat) : Binary64 := ofRatio false n 1

def ofInt (i : Int) : Binary64 := ofRatio (i < 0) i.natAbs 1

end Binary64
end Quire
