import Quire.Text.Alphanumeric
import Quire.Text.Blank
import Quire.Text.Lowercase

/-!
# Normal forms of names

Two normal forms: labels, which links and definitions share, and identifiers, which name
headings and bundles.
-/

namespace Quire.Text

/-- Labels match when their words agree up to case. -/
def label (name : String) : String :=
  String.ofList (lowercaseText ([' '].intercalate (words name.toList)))

def isDashLike (c : Char) : Bool := isBlank c || c == '-' || c == '_'

/-- The words of an identifier: alphanumeric characters, cut at the dash-like ones. All other
characters vanish without a trace. -/
def identifierWords (cs : List Char) : List (List Char) :=
  fields isDashLike (cs.filter fun c => isAlphanumeric c || isDashLike c)

/-- Stands in for a name with no usable character. -/
def unnamed : String := "section"

/-- Lowercase words joined by single dashes. -/
def identifier (name : String) : String :=
  match identifierWords name.toList with
  | [] => unnamed
  | ws => String.ofList (['-'].intercalate (ws.map (·.flatMap lowercase)))

end Quire.Text
