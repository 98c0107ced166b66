import Quire.Config.Basic
import Quire.Text.Blank
import Quire.Yaml.Value

/-!
# Reading configurations

A configuration is a YAML mapping. Unknown keys are passed over. Everything but the options is
read as a value first and then fitted, entry by entry, so the first entry at fault decides.
-/

namespace Quire

/-- Why a text is no configuration. Only refused lengths are told apart. -/
inductive ConfigFault where
  | size (refused : RefusedSize)
  | misfit
  deriving DecidableEq, Repr

namespace Config

open Yaml (Value)

abbrev Fit (α : Type) := Value → Except ConfigFault α

def misfit {α : Type} : Except ConfigFault α := .error .misfit

def fitText : Fit String
  | .text text => .ok text
  | _ => misfit

def fitOptional {α : Type} (fit : Fit α) : Fit (Option α)
  | .null => .ok none
  | value => (fit value).map some

def fitNatural (limit : Nat) : Fit Nat
  | .natural n => if n < limit then .ok n else misfit
  | .negative i => if i = 0 then .ok 0 else misfit
  | _ => misfit

def fitFloat : Fit Binary64
  | .natural n => .ok (.ofNat n)
  | .negative i => .ok (.ofInt i)
  | .float x => .ok x
  | _ => misfit

def fitSize : Fit Size
  | .text text => (Size.read text).mapError .size
  | _ => misfit

def fitSizes : Fit Sizes
  | .text text => (Sizes.read text).mapError .size
  | _ => misfit

/-- A name in a list by its text or by its place. -/
def named? (names : List String) : Value → Option String
  | .text text => if names.contains text then some text else none
  | .natural n => names[n]?
  | _ => none

/-- Nothing, which is what a choice without content may hold. -/
def isNothing : Value → Bool
  | .null => true
  | .mapping [] => true
  | _ => false

/-- One of several names, alone or as the only key of a mapping. -/
def fitChoice {α : Type} (all : List α) (name : α → String) : Fit α
  | .text text =>
    match all.find? (name · == text) with
    | some choice => .ok choice
    | none => misfit
  | .mapping [(key, content)] =>
    match named? (all.map name) key with
    | some text =>
      match all.find? (name · == text) with
      | some choice => if isNothing content then .ok choice else misfit
      | none => misfit
    | none => misfit
  | _ => misfit

/-- How a record takes a value for one of its fields. -/
abbrev SetField (α : Type) := α → String → Fit α

/-- Fit entries into a record in their order. `seen` are the fields that have come. -/
def fitEntries {α : Type} (names : List String) (set : SetField α) (seen : List String)
    (record : α) : List (Value × Value) → Except ConfigFault α
  | [] => .ok record
  | (key, value) :: rest =>
    match key with
    | .text _ | .natural _ =>
      match named? names key with
      | some name =>
        if seen.contains name then misfit
        else do
          let record ← set record name value
          fitEntries names set (name :: seen) record rest
      | none => fitEntries names set seen record rest
    | _ => misfit

/-- Fit values into the fields of a record in their declared order. There may be fewer values than
fields and not more. -/
def fitItems {α : Type} (set : SetField α) (record : α) :
    List String → List Value → Except ConfigFault α
  | _, [] => .ok record
  | [], _ :: _ => misfit
  | name :: names, value :: values => do
    let record ← set record name value
    fitItems set record names values

/-- A record as a mapping or as a sequence. Fields that are missing keep their values. -/
def fitRecord {α : Type} (names : List String) (set : SetField α) (record : α) : Fit α
  | .mapping entries => fitEntries names set [] record entries
  | .sequence items => fitItems set record names items
  | _ => misfit

def setNumbering : SetField NumberingFormats := fun record name value =>
  match name with
  | "headings" => do pure { record with headings := ← fitOptional fitText value }
  | "figures" => do pure { record with figures := ← fitOptional fitText value }
  | "tables" => do pure { record with tables := ← fitOptional fitText value }
  | _ => .ok record

def fitNumbering : Fit NumberingFormats :=
  fitRecord ["headings", "figures", "tables"] setNumbering {}

def setTheme : SetField Theme := fun record name value =>
  match name with
  | "color" => do pure { record with color := ← fitOptional fitText value }
  | "layout" => do pure { record with layout := ← fitOptional fitText value }
  | _ => .ok record

def fitTheme : Fit Theme := fitRecord ["color", "layout"] setTheme {}

def setPageFormat : SetField PageFormat := fun record name value =>
  match name with
  | "width" => do pure { record with width := ← fitOptional fitSize value }
  | "height" => do pure { record with height := ← fitOptional fitSize value }
  | "margin" => do pure { record with margin := ← fitOptional fitSizes value }
  | "columns" => do
    let columns ← fitOptional (fitNatural UInt32.size) value
    pure { record with columns := columns.map UInt32.ofNat }
  | "alignment" => do
    let fit := fitChoice HorizontalAlignment.all HorizontalAlignment.name
    pure { record with alignment := ← fitOptional fit value }
  | _ => .ok record

def fitPageFormat : Fit PageFormat :=
  fitRecord ["width", "height", "margin", "columns", "alignment"] setPageFormat {}

def setParagraphStyle : SetField ParagraphStyle := fun record name value =>
  match name with
  | "spacing" => do pure { record with spacing := ← fitOptional fitFloat value }
  | "line-height" => do pure { record with lineHeight := ← fitOptional fitFloat value }
  | "letter-spacing" => do pure { record with letterSpacing := ← fitOptional fitFloat value }
  | "indent" => do pure { record with indent := ← fitOptional fitFloat value }
  | _ => .ok record

def fitParagraphStyle : Fit ParagraphStyle :=
  fitRecord ["spacing", "line-height", "letter-spacing", "indent"] setParagraphStyle {}

def fitCaptionPosition : Fit CaptionPosition := fitChoice CaptionPosition.all CaptionPosition.name

def setCaptionPositions : SetField CaptionPositions := fun record name value =>
  match name with
  | "figures" => do pure { record with figures := ← fitCaptionPosition value }
  | "tables" => do pure { record with tables := ← fitCaptionPosition value }
  | _ => .ok record

def fitCaptionPositions : Fit CaptionPositions :=
  fitRecord ["figures", "tables"] setCaptionPositions {}

def setLayout : SetField Layout := fun record name value =>
  match name with
  | "page-format" => do pure { record with pageFormat := ← fitPageFormat value }
  | "paragraph-style" => do pure { record with paragraphStyle := ← fitParagraphStyle value }
  | "caption-position" => do pure { record with captionPositions := ← fitCaptionPositions value }
  | "auto-page-break-heading-depth" => do
    let depth ← fitNatural UInt8.size value
    pure { record with pageBreakDepth := UInt8.ofNat depth }
  | _ => .ok record

def fitLayout : Fit Layout :=
  fitRecord ["page-format", "paragraph-style", "caption-position",
    "auto-page-break-heading-depth"] setLayout {}

/-- Names and texts. A repeated name keeps its place and takes its last text. -/
def fitTexts : Fit (Registry String)
  | .mapping entries => do
    let pairs ← entries.mapM fun (key, value) => do
      pure (← fitText key, ← fitText value)
    pure (Registry.ofList pairs)
  | _ => misfit

def setDocument : SetField DocumentSettings := fun record name value =>
  match name with
  | "name" => do pure { record with name := ← fitOptional fitText value }
  | "type" => do pure { record with type := ← fitChoice DocumentType.all DocumentType.name value }
  | "locale" => do pure { record with locale := ← fitOptional fitText value }
  | "numbering" => do pure { record with numbering := ← fitOptional fitNumbering value }
  | "layout" => do pure { record with layout := ← fitLayout value }
  | "theme" => do pure { record with theme := ← fitTheme value }
  | "tex-macros" => do pure { record with texMacros := ← fitTexts value }
  | _ => .ok record

def documentFields : List String :=
  ["name", "type", "locale", "numbering", "layout", "theme", "tex-macros"]

/-- A scalar that may spell a boolean or a number: a plain one, or a literal block that is tagged
as one. -/
def isPlainScalar (type : String) (tag : Option String) (style : Yaml.ScalarStyle) : Bool :=
  style == .plain || (style == .literal && tag == some (Yaml.coreTag type))

def optionFlag? (node : Yaml.Node) : Option Bool :=
  match node.target with
  | .scalar tag style text => if isPlainScalar "bool" tag style then Yaml.bool? text else none
  | _ => none

def optionNatural? (node : Yaml.Node) : Option Nat :=
  match node.target with
  | .scalar tag style text =>
    if isPlainScalar "int" tag style then Yaml.natural? (Nat.pow 2 64) text.toList else none
  | _ => none

/-- Whether a node spells that there is nothing. A null tag on any other text is refused. -/
def optionIsNull? (node : Yaml.Node) : Option Bool :=
  match node.target with
  | .scalar tag style text =>
    if style != .plain then some false
    else match tag with
      | none => some (text.isEmpty || Yaml.isNull text)
      | some tag =>
        if tag != Yaml.coreTag "null" then some false
        else if Yaml.isNull text then some true
        else none
  | _ => some false

def optionPort? (node : Yaml.Node) : Option (Option UInt16) := do
  if ← optionIsNull? node then pure none
  else
    let n ← optionNatural? node
    if n < UInt16.size then pure (some (UInt16.ofNat n)) else none

def setOption? (options : RenderOptions) (name : String) (node : Yaml.Node) :
    Option RenderOptions :=
  match name with
  | "location-awareness" => do pure { options with locationAwareness := ← optionFlag? node }
  | "automatic-identifiers" => do
    pure { options with automaticIdentifiers := ← optionFlag? node }
  | "server-port" => do pure { options with serverPort := ← optionPort? node }
  | _ => some options

def optionFields : List String :=
  ["location-awareness", "automatic-identifiers", "server-port"]

def optionEntries? (seen : List String) (options : RenderOptions) :
    List (Yaml.Node × Yaml.Node) → Option RenderOptions
  | [] => some options
  | (key, node) :: rest => do
    let name ← key.text?
    if !optionFields.contains name then optionEntries? seen options rest
    else if seen.contains name then none
    else
      let options ← setOption? options name node
      optionEntries? (name :: seen) options rest

/-- The options of a node. An empty scalar leaves them all as they are. -/
def options? (node : Yaml.Node) : Option RenderOptions :=
  match node.target with
  | .scalar _ _ text => if text.isEmpty then some {} else none
  | .mapping _ entries => optionEntries? [] {} entries
  | _ => none

/-- The entries of a configuration: what belongs to the document, and the options, if they came. -/
structure Entries where
  document : List (Value × Value) := []
  options : Option RenderOptions := none
  deriving Repr

def sortEntries? : List (Yaml.Node × Yaml.Node) → Option Entries
  | [] => some {}
  | (key, node) :: rest => do
    let name ← key.text?
    if name == "options" then
      let options ← options? node
      let entries ← sortEntries? rest
      if entries.options.isSome then none else pure { entries with options := some options }
    else
      let value ← node.value? (Yaml.greatestNesting - 1)
      let entries ← sortEntries? rest
      pure { entries with document := (.text name, value) :: entries.document }

def ofRoot (root : Yaml.Node) : Except ConfigFault Config :=
  match root with
  | .scalar _ _ text => if text.isEmpty then .ok {} else misfit
  | .mapping _ entries =>
    match sortEntries? entries with
    | some entries => do
      let document ← fitEntries documentFields setDocument [] {} entries.document
      pure { document, options := entries.options.getD {} }
    | none => misfit
  | _ => misfit

/-- Read a configuration. A text of white space alone is the default one. What follows the first
document is looked at last, and must be nothing. -/
def read (text : String) : Except ConfigFault Config :=
  if (Text.trim text.toList).isEmpty then .ok {}
  else match Yaml.firstDocument text with
    | none => misfit
    | some first => do
      let config ← match first.root with
        | some root => ofRoot root
        | none => pure {}
      if first.isOnly then pure config else misfit

end Config
end Quire
