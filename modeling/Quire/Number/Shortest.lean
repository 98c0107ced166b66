import Quire.Number.Binary64

/-!
# Shortest decimals

The decimal with the fewest digits that reads back as a given positive double, and of those the
nearest. A decimal reads back exactly when it lies in the interval of the numbers that round to
the double.
-/

namespace Quire.Binary64

/-- The numbers that round to a double, as numerators over one denominator. The ends belong to
the interval exactly for an even significand. -/
structure RoundingInterval where
  low : Nat
  value : Nat
  high : Nat
  den : Nat
  closed : Bool
  deriving DecidableEq, Repr

/-- Half a unit to each side, but a quarter unit below a power of two. -/
def roundingInterval (significand : Nat) (exponent : Int) : RoundingInterval :=
  let scale := Nat.pow 2 (exponent - 2).toNat
  let below := if significand == Nat.pow 2 52 && exponent != leastExponent then 1 else 2
  { low := (4 * significand - below) * scale
    value := 4 * significand * scale
    high := (4 * significand + 2) * scale
    den := Nat.pow 2 (2 - exponent).toNat
    closed := significand % 2 == 0 }

/-- `digits * 10 ^ power` as a numerator over the denominator of the interval, with the factor by
which the numerators of the interval grow to stay comparable. -/
def gridPoint (i : RoundingInterval) (digits : Nat) (power : Int) : Nat × Nat :=
  if 0 ≤ power then (digits * Nat.pow 10 power.toNat * i.den, 1)
  else (digits * i.den, Nat.pow 10 (-power).toNat)

def RoundingInterval.contains (i : RoundingInterval) (digits : Nat) (power : Int) : Bool :=
  let (point, factor) := gridPoint i digits power
  if i.closed then i.low * factor ≤ point && point ≤ i.high * factor
  else i.low * factor < point && point < i.high * factor

/-- The integer part of `value / 10 ^ power`. -/
def RoundingInterval.floorAt (i : RoundingInterval) (power : Int) : Nat :=
  if 0 ≤ power then i.value / (i.den * Nat.pow 10 power.toNat)
  else i.value * Nat.pow 10 (-power).toNat / i.den

/-- The lower neighbour on the grid is nearer to the value than the upper one. A tie goes up. -/
def RoundingInterval.lowerIsNearer (i : RoundingInterval) (lower : Nat) (power : Int) : Bool :=
  let (below, factor) := gridPoint i lower power
  let (above, _) := gridPoint i (lower + 1) power
  2 * (i.value * factor) < below + above

/-- The decimal on the grid of multiples of `10 ^ power` that reads back, if there is one. -/
def RoundingInterval.onGrid? (i : RoundingInterval) (power : Int) : Option Nat :=
  let lower := i.floorAt power
  let upper := lower + 1
  match i.contains lower power, i.contains upper power with
  | true, true => some (if i.lowerIsNearer lower power then lower else upper)
  | true, false => some lower
  | false, true => some upper
  | false, false => none

/-- The power of ten of the leading digit, searched downward from an upper bound. -/
def leadingPower (i : RoundingInterval) : Nat → Int → Int
  | 0, power => power
  | steps + 1, power =>
    if 0 < i.floorAt power then power else leadingPower i steps (power - 1)

/-- The first grid with a decimal that reads back, from coarse to fine. -/
def firstGrid (i : RoundingInterval) : Nat → Int → Nat × Int
  | 0, power => (i.floorAt power, power)
  | steps + 1, power =>
    match i.onGrid? power with
    | some digits => (digits, power)
    | none => firstGrid i steps (power - 1)

/-- Shortest digits `d` and power `p` with `d * 10 ^ p` reading back as the double. The search
starts at the leading digit and ends at seventeen digits. -/
def shortest (significand : Nat) (exponent : Int) : Nat × Int :=
  let i := roundingInterval significand exponent
  firstGrid i 17 (leadingPower i 640 309)

end Quire.Binary64
