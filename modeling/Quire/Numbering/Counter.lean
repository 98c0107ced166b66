import Quire.Number.Decimal

/-!
# Counters

The spellings of a counter: decimal, by letters (`a` to `z`, then `aa`), and roman. Zero is
written `0` in every style.
-/

namespace Quire

inductive CounterStyle where
  | decimal | lowerAlpha | upperAlpha | lowerRoman | upperRoman
  deriving DecidableEq, Repr

namespace CounterStyle

def symbol : CounterStyle → Char
  | decimal => '1'
  | lowerAlpha => 'a'
  | upperAlpha => 'A'
  | lowerRoman => 'i'
  | upperRoman => 'I'

def all : List CounterStyle := [decimal, lowerAlpha, upperAlpha, lowerRoman, upperRoman]

def ofSymbol? (c : Char) : Option CounterStyle := all.find? (·.symbol == c)

/-- Digits `a` to `z` worth one to twenty-six, with no digit for zero. -/
def alphaText (n : Nat) : List Char :=
  if n = 0 then [] else alphaText ((n - 1) / 26) ++ [Char.ofNat (97 + (n - 1) % 26)]
termination_by n

def romanNumerals : List (Nat × List Char) :=
  [(1000, ['M']), (900, ['C', 'M']), (500, ['D']), (400, ['C', 'D']), (100, ['C']),
   (90, ['X', 'C']), (50, ['L']), (40, ['X', 'L']), (10, ['X']), (9, ['I', 'X']), (5, ['V']),
   (4, ['I', 'V']), (1, ['I'])]

/-- Write each numeral as often as it fits, in order. -/
def romanWith : List (Nat × List Char) → Nat → List Char
  | [], _ => []
  | (amount, numeral) :: rest, n =>
    (List.replicate (n / amount) numeral).flatten ++ romanWith rest (n % amount)

def romanText (n : Nat) : List Char := romanWith romanNumerals n

def text (style : CounterStyle) (n : Nat) : List Char :=
  if n = 0 then ['0']
  else match style with
    | decimal => Nat.toDigits 10 n
    | lowerAlpha => alphaText n
    | upperAlpha => (alphaText n).map Char.toUpper
    | lowerRoman => (romanText n).map Char.toLower
    | upperRoman => romanText n

end CounterStyle
end Quire
