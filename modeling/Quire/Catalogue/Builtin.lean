import Quire.Catalogue.Basic
import Quire.Catalogue.Builtin.Page
import Quire.Catalogue.Builtin.Scripts
import Quire.Catalogue.Builtin.Stylesheets
import Quire.Storage.Path

/-!
# The built-in catalogue

The page template, two layouts, two colour schemes and the scripts. Paths are looked up by their
steps, so a doubled or trailing slash makes no difference.
-/

namespace Quire.Catalogue

namespace Builtin

/-- A text of lines, each with its line break. -/
def unlines (lines : List String) : String := String.join (lines.map (· ++ "\n"))

def pagePath : String := "html-wrapper.html.template"

def entries : List (String × List String) :=
  [(pagePath, pageTemplate),
   ("theme/global.css", globalStyle),
   ("theme/layout/latex.css", latexLayout),
   ("theme/layout/minimal.css", minimalLayout),
   ("theme/color/paperwhite.css", paperwhiteColors),
   ("theme/color/darko.css", darkoColors),
   ("script/script.js", pageScript),
   ("script/slides.js", slidesScript),
   ("script/paged.js", pagedScript),
   ("script/math.js", mathScript),
   ("script/mermaid.js", mermaidScript),
   ("script/tikz.js", tikzScript),
   ("script/code.js", codeScript),
   ("script/websockets.js", websocketsScript)]

def texts : Registry String := ⟨entries.map fun (path, lines) => (path, unlines lines)⟩

def find? (path : String) : Option String :=
  (entries.find? fun e => Path.steps e.1 == Path.steps path).map fun e => unlines e.2

end Builtin

def builtin : Catalogue :=
  { contains := fun path => (Builtin.find? path).isSome
    load := fun path => found path (Builtin.find? path) }

/-- The files of a directory before the built-in entries. -/
def withOverrides (overrides : Catalogue) : Catalogue := layered [overrides, builtin]

end Quire.Catalogue
