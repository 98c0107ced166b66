import Quire.Context

/-!
# Components

The catalogue entries that ship with a page: the stylesheets of its theme and the scripts that it
needs.
-/

namespace Quire

inductive ComponentKind where
  | stylesheet | script
  deriving DecidableEq, Repr

structure Component where
  kind : ComponentKind
  name : String
  deriving DecidableEq, Repr

namespace Component

def stylesheet (name : String) : Component := ⟨.stylesheet, name⟩

def script (name : String) : Component := ⟨.script, name⟩

/-- The path in the catalogue. -/
def path (component : Component) : String :=
  match component.kind with
  | .stylesheet => "theme/" ++ component.name ++ ".css"
  | .script => "script/" ++ component.name ++ ".js"

end Component

/-- The theme that is set, where parts that are not come from the built-in one. -/
def DocumentSettings.fullTheme (settings : DocumentSettings) : Theme :=
  settings.theme.orElse .builtin

/-- The stylesheets of a theme, in the order of their import. -/
def Theme.stylesheets (theme : Theme) : List Component :=
  .stylesheet "global" ::
    ((theme.layout.map fun name => Component.stylesheet ("layout/" ++ name)).toList ++
      (theme.color.map fun name => Component.stylesheet ("color/" ++ name)).toList)

/-- The stylesheets of a theme whose parts have accepted names. -/
def Theme.components (theme : Theme) : Except RefusedTheme (List Component) := do
  theme.check
  pure theme.stylesheets

inductive PageScript where
  | base | slides | paged | math | mermaid | tikz | code | websockets
  deriving DecidableEq, Repr

namespace PageScript

def name : PageScript → String
  | base => "script"
  | slides => "slides"
  | paged => "paged"
  | math => "math"
  | mermaid => "mermaid"
  | tikz => "tikz"
  | code => "code"
  | websockets => "websockets"

/-- In the order in which they are loaded. -/
def all : List PageScript := [base, slides, paged, math, mermaid, tikz, code, websockets]

def component (script : PageScript) : Component := .script script.name

end PageScript

namespace Context

def needsScript (context : Context) : PageScript → Bool
  | .base => true
  | .slides => context.document.type == .slides
  | .paged => context.document.type == .paged
  | .math => context.index.presence.math
  | .mermaid => context.index.presence.mermaidDiagram
  | .tikz => context.index.presence.tikzDiagram
  | .code => context.index.presence.code
  | .websockets => context.options.serverPort.isSome

def scripts (context : Context) : List Component :=
  (PageScript.all.filter context.needsScript).map PageScript.component

end Context

/-- The catalogue paths of all components that a page in this theme may have. A theme that is
refused has no stylesheets. -/
def Theme.componentPaths (theme : Theme) : List String :=
  let stylesheets := match theme.components with
    | .ok stylesheets => stylesheets
    | .error _ => []
  (stylesheets ++ PageScript.all.map PageScript.component).map Component.path

end Quire
