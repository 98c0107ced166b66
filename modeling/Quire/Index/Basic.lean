import Quire.Document.Style
import Quire.Index.Capability
import Quire.Index.Location
import Quire.Registry
import Quire.Number.Decimal
import Quire.Text.Name

/-!
# The index of a document

What one pass over a document learns: needed capabilities, link definitions, identifiers of
headings and locations. Entries are only ever added, so positions stay valid.
-/

namespace Quire

/-- The heading behind an identifier. `isExplicit` tells that its author chose the identifier. -/
structure IdentifierTarget where
  depth : UInt8
  text : String
  isExplicit : Bool
  deriving DecidableEq, Repr

structure Index where
  presence : Presence := {}
  linkDefinitions : Registry LinkDefinition := .empty
  identifiers : Registry IdentifierTarget := .empty
  locations : Locations := {}
  deriving DecidableEq, Repr

namespace Index

def mark (index : Index) (capability : Capability) : Index :=
  { index with presence := index.presence.mark capability }

/-- Register a definition under its label, unless the label is taken. Tells whether it was free. -/
def define (index : Index) (definition : LinkDefinition) : Bool × Index :=
  let key := Text.label definition.label
  if index.linkDefinitions.contains key then (false, index)
  else (true, { index with linkDefinitions := index.linkDefinitions.push key definition })

def link? (index : Index) (label : String) : Option LinkDefinition :=
  index.linkDefinitions.find? (Text.label label)

/-- The spellings of an identifier: plain, then with the suffixes `-1`, `-2`, and so on. -/
def spelling (base : String) : Nat → String
  | 0 => base
  | suffix => base ++ "-" ++ decimal suffix

/-- The least suffix from `suffix` on with a free spelling. There are at most as many taken ones as
entries, which bounds the steps. -/
def freeSuffix {α : Type} (taken : Registry α) (base : String) : Nat → Nat → Nat
  | 0, suffix => suffix
  | steps + 1, suffix =>
    if taken.contains (spelling base suffix) then freeSuffix taken base steps (suffix + 1)
    else suffix

def freeSpelling {α : Type} (taken : Registry α) (base : String) : String :=
  spelling base (freeSuffix taken base taken.size 0)

/-- Register a target under the first free spelling of a name, which is returned. -/
def identify (index : Index) (name : String) (target : IdentifierTarget) : String × Index :=
  let id := freeSpelling index.identifiers (Text.identifier name)
  (id, { index with identifiers := index.identifiers.push id target })

def identifier? (index : Index) (id : String) : Option IdentifierTarget :=
  index.identifiers.find? id

def identifierAt? (index : Index) (i : Nat) : Option (String × IdentifierTarget) :=
  index.identifiers.entryAt? i

def record (index : Index) (kind : LocationKind) (location : Location) : Index :=
  { index with locations := index.locations.record kind location }

def locationAt? (index : Index) (kind : LocationKind) (i : Nat) : Option Location :=
  (index.locations.ofKind kind)[i]?

def locationCount (index : Index) (kind : LocationKind) : Nat :=
  (index.locations.ofKind kind).length

end Index
end Quire
