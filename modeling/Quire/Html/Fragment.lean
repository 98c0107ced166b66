import Quire.Html.Piece
import Quire.Warning

/-!
# Fragments

A row of pieces with the warnings that came up while it was made.
-/

namespace Quire.Html

structure Fragment where
  pieces : List Piece := []
  warnings : List Warning := []
  deriving DecidableEq, Repr

namespace Fragment

def append (a b : Fragment) : Fragment := ⟨a.pieces ++ b.pieces, a.warnings ++ b.warnings⟩

instance : Append Fragment := ⟨append⟩

def empty : Fragment := {}

def ofPiece (piece : Piece) : Fragment := { pieces := [piece] }

def text (content : String) : Fragment := ofPiece (.text content)

def lineBreak : Fragment := text "\n"

def warn (warning : Warning) : Fragment := { warnings := [warning] }

def warnIf (condition : Bool) (warning : Warning) : Fragment :=
  if condition then warn warning else empty

def element (name : String) (attributes : List Attribute) (content : Fragment) : Fragment :=
  ofPiece (.opening name attributes) ++ content ++ ofPiece (.closing name)

/-- An element with a line break behind it. -/
def lineElement (name : String) (attributes : List Attribute) (content : Fragment) : Fragment :=
  element name attributes content ++ lineBreak

/-- An element over several lines: line breaks behind both of its tags. -/
def blockElement (name : String) (attributes : List Attribute) (content : Fragment) : Fragment :=
  lineElement name attributes (lineBreak ++ content)

def concat (fragments : List Fragment) : Fragment := fragments.foldr append empty

def write (fragment : Fragment) : String := Piece.writeAll fragment.pieces

end Fragment
end Quire.Html
