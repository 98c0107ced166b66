import Quire.Config.Basic
import Quire.Index.Basic
import Quire.Localization

/-!
# Render contexts

What a render looks things up in: the configuration, the index of the document, and the services
that label locations and find words of a language.
-/

namespace Quire

structure Context where
  document : DocumentSettings
  options : RenderOptions
  index : Index := {}
  labelling : Labelling
  localizer : Localizer := Localizer.builtin

namespace Context

/-- A context with the numbering of its configuration and an empty index. -/
def ofConfig (config : Config) : Except RefusedFormat Context := do
  let scheme ← config.document.formats.read
  pure { document := config.document, options := config.options, labelling := scheme.label }

/-- The word for a key in the locale of the document. Without a locale there is none. -/
def localize (context : Context) (key : String) : Option String :=
  context.document.locale.bind (context.localizer key)

/-- The label of the `i`-th node of a kind. An empty label counts as none. -/
def locationLabel (context : Context) (kind : LocationKind) (i : Nat) : Option String :=
  if context.options.locationAwareness then do
    let location ← context.index.locationAt? kind i
    (context.labelling kind location).filter (!·.isEmpty)
  else none

/-- Whether a heading of a depth starts a new page. Markers never do. -/
def breaksPage (context : Context) (depth : UInt8) : Bool :=
  context.document.type.hasPages && depth != 0 && depth ≤ context.document.layout.pageBreakDepth

end Context
end Quire
