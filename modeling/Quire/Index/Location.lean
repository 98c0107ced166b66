/-!
# Locations

Where headings, figures and tables sit among the sections.
-/

namespace Quire

inductive LocationKind where
  | heading | figure | table
  deriving DecidableEq, Repr

namespace LocationKind

def name : LocationKind → String
  | heading => "heading"
  | figure => "figure"
  | table => "table"

def all : List LocationKind := [heading, figure, table]

end LocationKind

/-- `sections` are the numbers of the enclosing sections from the top; for a heading the last one
is its own. `ordinals` are the counts of nodes of the kind up to this one: since the start of the
document, since the last heading of depth one or less, of depth two or less, and so on. Headings
have none. -/
structure Location where
  sections : List Nat
  ordinals : List Nat := []
  deriving DecidableEq, Repr

namespace Location

/-- The number of the section at a depth counted from zero, and zero where there is none. -/
def sectionAt (location : Location) (depth : Nat) : Nat := location.sections[depth]?.getD 0

/-- The count since a heading of a depth. Depths past the last count share that one. -/
def ordinalAt (location : Location) (depth : Nat) : Nat :=
  (location.ordinals[depth]?.or location.ordinals.getLast?).getD 0

end Location

structure Locations where
  headings : List Location := []
  figures : List Location := []
  tables : List Location := []
  deriving DecidableEq, Repr

namespace Locations

def ofKind (locations : Locations) : LocationKind → List Location
  | .heading => locations.headings
  | .figure => locations.figures
  | .table => locations.tables

def record (locations : Locations) (kind : LocationKind) (location : Location) : Locations :=
  match kind with
  | .heading => { locations with headings := locations.headings ++ [location] }
  | .figure => { locations with figures := locations.figures ++ [location] }
  | .table => { locations with tables := locations.tables ++ [location] }

end Locations
end Quire
