import Quire.Config.Layout
import Quire.Config.Theme
import Quire.Numbering.Scheme
import Quire.Registry
import Quire.Text.Name

/-!
# Configurations

All that can be set for a document and its rendering.
-/

namespace Quire

inductive DocumentType where
  | plain | paged | slides
  deriving DecidableEq, Repr

namespace DocumentType

def name : DocumentType → String
  | plain => "plain"
  | paged => "paged"
  | slides => "slides"

def all : List DocumentType := [plain, paged, slides]

/-- Whether the document is cut into pages. -/
def hasPages : DocumentType → Bool
  | plain => false
  | paged => true
  | slides => true

end DocumentType

/-- Numbering formats as they are written. Kinds without one are not numbered. -/
structure NumberingFormats where
  headings : Option String := none
  figures : Option String := none
  tables : Option String := none
  deriving DecidableEq, Repr

structure RefusedFormat where
  text : String
  deriving DecidableEq, Repr

def RefusedFormat.message (refused : RefusedFormat) : String :=
  "Invalid numbering format '" ++ refused.text ++ "'"

namespace NumberingFormats

/-- The formats of a document that sets none. -/
def default : DocumentType → NumberingFormats
  | .paged => { headings := some "1.1.1", figures := some "1.1", tables := some "1.1" }
  | .plain => { figures := some "1", tables := some "1" }
  | .slides => { figures := some "1", tables := some "1" }

def readFormat : Option String → Except RefusedFormat (Option NumberingFormat)
  | none => .ok none
  | some text =>
    match NumberingFormat.read? text with
    | some format => .ok (some format)
    | none => .error ⟨text⟩

/-- Read the formats of headings, figures and tables, in that order. -/
def read (formats : NumberingFormats) : Except RefusedFormat NumberingScheme := do
  let headings ← readFormat formats.headings
  let figures ← readFormat formats.figures
  let tables ← readFormat formats.tables
  pure { headings, figures, tables }

end NumberingFormats

structure DocumentSettings where
  name : Option String := none
  type : DocumentType := .plain
  locale : Option String := none
  numbering : Option NumberingFormats := none
  layout : Layout := {}
  theme : Theme := {}
  texMacros : Registry String := .empty
  deriving DecidableEq, Repr

namespace DocumentSettings

/-- The formats that are set, or those of the type. -/
def formats (settings : DocumentSettings) : NumberingFormats :=
  settings.numbering.getD (NumberingFormats.default settings.type)

/-- The name of the directory of the bundle. -/
def bundleName (settings : DocumentSettings) : String :=
  match settings.name with
  | some name => Text.identifier name
  | none => "document"

end DocumentSettings

structure RenderOptions where
  /-- Label headings, figures and tables. -/
  locationAwareness : Bool := true
  /-- Write identifiers that no author chose. -/
  automaticIdentifiers : Bool := true
  /-- The port of a preview server that the page connects to. -/
  serverPort : Option UInt16 := none
  deriving DecidableEq, Repr

structure Config where
  document : DocumentSettings := {}
  options : RenderOptions := {}
  deriving DecidableEq, Repr

end Quire
