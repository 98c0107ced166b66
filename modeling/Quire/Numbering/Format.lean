import Quire.Numbering.Counter

/-!
# Numbering formats

A text such as `1.1` or `A-i`, where some characters stand for counters and all others for
themselves.
-/

namespace Quire

inductive FormatSymbol where
  | counter (style : CounterStyle)
  | literal (c : Char)
  deriving DecidableEq, Repr

namespace FormatSymbol

def ofChar (c : Char) : FormatSymbol :=
  match CounterStyle.ofSymbol? c with
  | some style => counter style
  | none => literal c

def isCounter : FormatSymbol → Bool
  | counter _ => true
  | literal _ => false

end FormatSymbol

/-- A format has at least one counter. -/
structure NumberingFormat where
  symbols : List FormatSymbol
  hasCounter : symbols.any FormatSymbol.isCounter = true
  deriving DecidableEq, Repr

namespace NumberingFormat

def read? (text : String) : Option NumberingFormat :=
  let symbols := text.toList.map FormatSymbol.ofChar
  if h : symbols.any FormatSymbol.isCounter = true then some ⟨symbols, h⟩ else none

def depth (format : NumberingFormat) : Nat := format.symbols.countP FormatSymbol.isCounter

/-- Write counters in the order of their symbols. Literals wait in `pending` for the counter that
follows them, so what follows the last counter is not written. -/
def formatSymbols (pending : List Char) : List FormatSymbol → List Nat → List Char
  | [], _ => []
  | .literal c :: rest, values => formatSymbols (pending ++ [c]) rest values
  | .counter _ :: _, [] => []
  | .counter style :: rest, value :: values =>
    pending ++ style.text value ++ formatSymbols [] rest values

def write (format : NumberingFormat) (counters : List Nat) : String :=
  String.ofList (formatSymbols [] format.symbols counters)

end NumberingFormat
end Quire
