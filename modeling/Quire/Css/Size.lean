import Quire.Number.Text
import Quire.Text.Blank

/-!
# CSS lengths

A length is a plain decimal number and a unit, such as `21cm` or `1.5em`. Only such text is
accepted, so a length can be written into a stylesheet as it stands.
-/

namespace Quire

inductive SizeUnit where
  | px | pt | cm | mm | inch | em | rem | percent
  deriving DecidableEq, Repr

namespace SizeUnit

def css : SizeUnit → String
  | px => "px"
  | pt => "pt"
  | cm => "cm"
  | mm => "mm"
  | inch => "in"
  | em => "em"
  | rem => "rem"
  | percent => "%"

def all : List SizeUnit := [px, pt, cm, mm, inch, em, rem, percent]

def ofCss? (text : List Char) : Option SizeUnit := all.find? (·.css.toList == text)

end SizeUnit

structure Size where
  value : Binary64
  unit : SizeUnit
  deriving DecidableEq, Repr

structure RefusedSize where
  text : String
  deriving DecidableEq, Repr

def RefusedSize.message (refused : RefusedSize) : String :=
  "Invalid size '" ++ refused.text ++
    "': expected a number followed by px, pt, cm, mm, in, em, rem or %"

namespace Size

/-- Split `digits[.digits]` off a text. -/
def splitNumber? (cs : List Char) : Option (List Char × List Char) :=
  let whole := cs.takeWhile isDigit
  let rest := cs.dropWhile isDigit
  if whole.isEmpty then none
  else match rest with
    | '.' :: tail =>
      let fraction := tail.takeWhile isDigit
      if fraction.isEmpty then some (whole, rest)
      else some (whole ++ '.' :: fraction, tail.dropWhile isDigit)
    | _ => some (whole, rest)

def readChars? (cs : List Char) : Option Size := do
  let (number, unit) ← splitNumber? (Text.trim cs)
  let unit ← SizeUnit.ofCss? unit
  let value ← Binary64.read? number
  pure ⟨value, unit⟩

/-- Read a length, white space around it aside. -/
def read (text : String) : Except RefusedSize Size :=
  match readChars? text.toList with
  | some size => .ok size
  | none => .error ⟨text⟩

def css (size : Size) : String := size.value.toText ++ size.unit.css

end Size

/-- Lengths in shorthand order, as for margins. -/
structure Sizes where
  values : List Size
  deriving DecidableEq, Repr

namespace Sizes

/-- Read one to four lengths. The first one that is refused is named; a wrong count refuses the
whole text. -/
def read (text : String) : Except RefusedSize Sizes := do
  let values ← (Text.words text.toList).mapM fun word => Size.read (String.ofList word)
  if 1 ≤ values.length && values.length ≤ 4 then pure ⟨values⟩ else throw ⟨text⟩

def css (sizes : Sizes) : String := " ".intercalate (sizes.values.map Size.css)

end Sizes
end Quire
