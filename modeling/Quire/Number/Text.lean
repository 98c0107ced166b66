import Quire.Number.Decimal
import Quire.Number.Shortest

/-!
# Decimal text

Numbers are written positionally, without an exponent, with the fewest digits that read back and
no fraction for a whole number. Reading takes digits with an optional fraction and exponent.
-/

namespace Quire

namespace Binary64

/-- `digits * 10 ^ power` in positional notation. The text of `digits` has no zeros at its end. -/
def positional (digits : List Char) (power : Int) : List Char :=
  if 0 ≤ power then digits ++ List.replicate power.toNat '0'
  else
    let places := (-power).toNat
    if places < digits.length then
      let whole := digits.length - places
      digits.take whole ++ '.' :: digits.drop whole
    else '0' :: '.' :: List.replicate (places - digits.length) '0' ++ digits

/-- The digits of a number without the zeros at their end, and how many zeros went. -/
def significantDigits (n : Nat) : List Char × Nat :=
  let reversed := (Nat.toDigits 10 n).reverse
  ((reversed.dropWhile (· == '0')).reverse, (reversed.takeWhile (· == '0')).length)

def magnitudeText (significand : Nat) (exponent : Int) : List Char :=
  if significand = 0 then ['0']
  else
    let (digits, power) := shortest significand exponent
    let (shown, zeros) := significantDigits digits
    positional shown (power + zeros)

def signText (negative : Bool) : List Char := if negative then ['-'] else []

def toText : Binary64 → String
  | .finite negative significand exponent =>
    String.ofList (signText negative ++ magnitudeText significand exponent)
  | .infinite negative => String.ofList (signText negative ++ "inf".toList)
  | .notANumber => "NaN"

def splitSign : List Char → Bool × List Char
  | '-' :: rest => (true, rest)
  | '+' :: rest => (false, rest)
  | cs => (false, cs)

/-- The exponent part `e±digits`, or nothing at all. -/
def readExponent : List Char → Option Int
  | [] => some 0
  | mark :: rest =>
    let (negative, digits) := splitSign rest
    if (mark == 'e' || mark == 'E') && !digits.isEmpty && digits.all isDigit then
      some (if negative then -(digitsValue digits : Int) else digitsValue digits)
    else none

/-- Read an optional sign, digits with an optional point among or around them, and an optional
exponent. -/
def read? (cs : List Char) : Option Binary64 :=
  let (negative, body) := splitSign cs
  let whole := body.takeWhile isDigit
  let afterWhole := body.dropWhile isDigit
  let (fraction, tail) := match afterWhole with
    | '.' :: rest => (rest.takeWhile isDigit, rest.dropWhile isDigit)
    | rest => ([], rest)
  if whole.isEmpty && fraction.isEmpty then none
  else do
    let exponent ← readExponent tail
    pure (ofDecimal negative (digitsValue (whole ++ fraction)) (exponent - fraction.length))

end Binary64
end Quire
