import Quire.Bundle.Component
import Quire.Catalogue.Builtin
import Quire.Template.Process
import Quire.Text.Escape

/-!
# Pages

A page is the page template with everything put in that a context knows, and the body.
-/

namespace Quire.Page

def defaultTitle : String := "Untitled"

def em (value : Binary64) : String := value.toText ++ "em"

/-- A macro as a member of a script's object. -/
def macroEntry (name expansion : String) : String :=
  "\"" ++ Text.escapeScript name ++ "\": \"" ++ Text.escapeScript expansion ++ "\""

def supplyDocument (context : Context) (template : Template) : Template :=
  let document := context.document
  template
    |>.supplyOptional "SERVER_PORT" (context.options.serverPort.map fun n => decimal n.toNat)
    |>.supply "TITLE" (Text.escapeMarkup (document.name.getD defaultTitle))
    |>.supplyOptional "LANG" (document.locale.map Text.escapeMarkup)
    |>.supply "DOCTYPE" document.type.name
    |>.showBlocks "IS_PAGED" (document.type == .paged)
    |>.showBlocks "IS_SLIDES" (document.type == .slides)

def supplyPresence (presence : Presence) (template : Template) : Template :=
  template
    |>.showBlocks "HAS_CODE" presence.code
    |>.showBlocks "HAS_MERMAID_DIAGRAM" presence.mermaidDiagram
    |>.showBlocks "HAS_TIKZ_DIAGRAM" presence.tikzDiagram
    |>.showBlocks "HAS_MATH" presence.math

def supplyFormat (format : PageFormat) (template : Template) : Template :=
  template
    |>.showBlocks "HAS_PAGE_SIZE" format.hasSize
    |>.supplyOptional "PAGE_WIDTH" (format.width.map Size.css)
    |>.supplyOptional "PAGE_HEIGHT" (format.height.map Size.css)
    |>.supplyOptional "PAGE_MARGIN" (format.margin.map Sizes.css)
    |>.supplyOptional "COLUMN_COUNT" (format.columns.map fun n => decimal n.toNat)
    |>.supplyOptional "HORIZONTAL_ALIGNMENT" (format.alignment.map HorizontalAlignment.name)

def supplyParagraphs (style : ParagraphStyle) (template : Template) : Template :=
  template
    |>.supplyOptional "PARAGRAPH_SPACING" (style.spacing.map em)
    |>.supplyOptional "PARAGRAPH_LINE_HEIGHT" (style.lineHeight.map Binary64.toText)
    |>.supplyOptional "PARAGRAPH_LETTER_SPACING" (style.letterSpacing.map em)
    |>.supplyOptional "PARAGRAPH_INDENT" (style.indent.map em)

def supplyMacros (macros : Registry String) (template : Template) : Template :=
  template.repeatOver "TEX_MACROS"
    (macros.entries.map fun (name, expansion) => .single (macroEntry name expansion))

/-- A page template with all but the body. -/
def template (context : Context) (text : String) : Template :=
  Template.ofText text
    |> supplyDocument context
    |> supplyPresence context.index.presence
    |> supplyFormat context.document.layout.pageFormat
    |> supplyParagraphs context.document.layout.paragraphStyle
    |> supplyMacros context.document.texMacros

/-- A body in a page template with the given text. -/
def wrap (context : Context) (text body : String) : Except TemplateFailure String :=
  ((template context text).supply "CONTENT" body).process

end Quire.Page
