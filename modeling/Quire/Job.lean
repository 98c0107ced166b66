import Quire.Bundle.Assembly
import Quire.Discovery
import Quire.Html.Block

/-!
# Jobs

From a document and its configuration to a bundle: discovery, rendering, assembly.
-/

namespace Quire

/-- Whether media should be stored with a bundle. Nothing said leaves it to who stores them. -/
structure MediaStorage where
  storesLocal : Option Bool
  storesRemote : Option Bool
  deriving DecidableEq, Repr

/-- Pages load media by relative paths, so local files have to come with them. -/
def MediaStorage.ofPage : MediaStorage := { storesLocal := some true, storesRemote := none }

structure Output where
  bundle : Resource
  warnings : List Warning
  media : MediaStorage := .ofPage
  /-- What discovery found. -/
  index : Index
  deriving Repr

namespace Output

def page? (output : Output) : Option String := do
  (← output.bundle.member? "index").text?

end Output

namespace Context

def discover (context : Context) (document : Document) : Context :=
  { context with index := document.index }

def bundle (context : Context) (catalogue : Catalogue) (document : Document) :
    Except RenderFailure Output := do
  let (fragment, _) := document.render context {}
  let bundle ← Bundle.assemble context catalogue fragment.write
  pure { bundle, warnings := fragment.warnings, index := context.index }

end Context

def Document.bundle (document : Document) (config : Config) (catalogue : Catalogue) :
    Except RenderFailure Output := do
  let context ← (Context.ofConfig config).mapError .numbering
  (context.discover document).bundle catalogue document

end Quire
