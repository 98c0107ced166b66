import Quire.Registry
import Quire.Template.Marker

/-!
# Templates

A text with places for scalars, conditional blocks and repeated blocks, and what has been supplied
for them.
-/

namespace Quire

/-- One repetition of a block: a text bound to the key of the block, or texts bound to fields. -/
inductive TemplateRow where
  | single (text : String)
  | named (fields : Registry String)
  deriving DecidableEq, Repr

def TemplateRow.find? (block key : String) : TemplateRow → Option String
  | .single text => if key == block then some text else none
  | .named fields => fields.find? key

structure Template where
  text : String
  values : Registry String := .empty
  /-- Keys that were supplied as values that may be absent. -/
  optionalKeys : List String := []
  conditionals : Registry Bool := .empty
  iterables : Registry (List TemplateRow) := .empty
  deriving DecidableEq, Repr

inductive TemplateFailure where
  | missingValue (key : String)
  | unresolvedBlock (block : Template.BlockKind) (key : String)
  | unterminatedBlock (block : Template.BlockKind) (key : String)
  | strayMarker (marker : Template.MarkerKind) (key : String)
  deriving DecidableEq, Repr

namespace TemplateFailure

def key : TemplateFailure → String
  | missingValue key => key
  | unresolvedBlock _ key => key
  | unterminatedBlock _ key => key
  | strayMarker _ key => key

def message : TemplateFailure → String
  | missingValue key =>
    "No value supplied for required template placeholder [[" ++ key ++ "]]"
  | unresolvedBlock block key =>
    "No value supplied for template block [[" ++ (Template.MarkerKind.opening block).word ++ ":" ++
      key ++ "]]"
  | unterminatedBlock block key =>
    "Template block [[" ++ (Template.MarkerKind.opening block).word ++ ":" ++ key ++
      "]] is never closed"
  | strayMarker marker key => "Unexpected template marker [[" ++ marker.word ++ ":" ++ key ++ "]]"

end TemplateFailure

namespace Template

def ofText (text : String) : Template := { text := text }

def supply (template : Template) (key value : String) : Template :=
  { template with values := template.values.insert key value }

/-- Supply a value that may be absent, which counts as the empty text. -/
def supplyOptional (template : Template) (key : String) (value : Option String) : Template :=
  { template with
    values := template.values.insert key (value.getD "")
    optionalKeys :=
      if template.optionalKeys.contains key then template.optionalKeys
      else template.optionalKeys ++ [key] }

def showBlocks (template : Template) (key : String) (holds : Bool) : Template :=
  { template with conditionals := template.conditionals.insert key holds }

/-- Repeat the blocks with a key, once for each row. -/
def repeatOver (template : Template) (key : String) (rows : List TemplateRow) : Template :=
  { template with iterables := template.iterables.insert key rows }

end Template
end Quire
