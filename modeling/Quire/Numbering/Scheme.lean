import Quire.Index.Location
import Quire.Numbering.Format

/-!
# Numbering schemes

Which kinds of nodes are numbered, and in which formats. A heading is labelled with its section
numbers. A figure or table is labelled with section numbers for all counters but the last, and
there with its count within that section.
-/

namespace Quire

abbrev Labelling := LocationKind → Location → Option String

structure NumberingScheme where
  headings : Option NumberingFormat := none
  figures : Option NumberingFormat := none
  tables : Option NumberingFormat := none
  deriving DecidableEq, Repr

namespace NumberingScheme

def format? (scheme : NumberingScheme) : LocationKind → Option NumberingFormat
  | .heading => scheme.headings
  | .figure => scheme.figures
  | .table => scheme.tables

/-- The section numbers of a heading that the format can number. A heading below a level that was
left out has none. -/
def headingCounters? (depth : Nat) (location : Location) : Option (List Nat) :=
  let sections := location.sections
  if sections.isEmpty || depth < sections.length || sections.contains 0 then none
  else some sections

def captionCounters (depth : Nat) (location : Location) : List Nat :=
  (List.range (depth - 1)).map location.sectionAt ++ [location.ordinalAt (depth - 1)]

def counters? (depth : Nat) (location : Location) : LocationKind → Option (List Nat)
  | .heading => headingCounters? depth location
  | .figure => some (captionCounters depth location)
  | .table => some (captionCounters depth location)

def label (scheme : NumberingScheme) : Labelling := fun kind location => do
  let format ← scheme.format? kind
  let counters ← counters? format.depth location kind
  pure (format.write counters)

end NumberingScheme
end Quire
