import Quire.Bundle.Assembly
import Quire.Proofs.Template.Evaluation

/-!
# The syntax tree of the page

The built-in page template as a syntax tree. The blocks that load scripts are all of one form.
-/

namespace Quire.Page

open Template

/-- How the tags start that load scripts of the bundle. -/
def tagStart : String := "<script src=\"script/"

theorem toList_tagStart : tagStart.toList =
    ['<', 's', 'c', 'r', 'i', 'p', 't', ' ', 's', 'r', 'c', '=', '"', 's', 'c', 'r', 'i', 'p', 't',
      '/'] := by
  unfold tagStart
  rw [String.toList_ofList]

def scriptTag (script : PageScript) : String := tagStart ++ script.name ++ ".js\">"

theorem toList_scriptTag (script : PageScript) :
    (scriptTag script).toList = tagStart.toList ++ (script.name.toList ++ ".js\">".toList) := by
  have outer : (scriptTag script).toList = (tagStart ++ script.name).toList ++ ".js\">".toList :=
    String.toList_append
  have inner : (tagStart ++ script.name).toList = tagStart.toList ++ script.name.toList :=
    String.toList_append
  rw [outer, inner, List.append_assoc]

theorem isPlain_scriptTag (script : PageScript) :
    isPlain (scriptTag script).toList = true := by
  rw [toList_scriptTag]
  unfold tagStart
  cases script <;>
    (rw [PageScript.name]
     repeat rw [String.toList_ofList]
     decide)

def text (s : String)
    (plain : isPlain s.toList = true := by rw [String.toList_ofList]; decide) : Part :=
  .literal (.ofString s plain)

def loading (script : PageScript) : List Part :=
  [text (scriptTag script) (isPlain_scriptTag script), text "</script>\n    "]

def content : Key := .ofString "CONTENT"

def slidesKey : Key := .ofString "IS_SLIDES"

def macrosKey : Key := .ofString "TEX_MACROS"

def opening : List Part :=
  [text "<!DOCTYPE html>\n<html lang=\"", .scalar (.ofString "LANG"),
   text "\">\n<head>\n    <meta charset=\"UTF-8\">\n",
   text "    <meta name=\"viewport\" content=\"width=device-width, initial-scale=1.0\">\n",
   text "    <title>",
   .scalar (.ofString "TITLE"),
   text "</title>\n    <link rel=\"stylesheet\" href=\"theme/theme.css\">\n    "]

def macroEnd : Literal := .ofString ",\n            "

def macros : Part := .loop macrosKey [.scalar macrosKey, .literal macroEnd]

def setup : PageScript → List Part
  | .slides =>
    [text "\n    <link rel=\"stylesheet\"",
     text " href=\"https://cdn.jsdelivr.net/npm/reveal.js@5/dist/reveal.css\">\n    ",
     text "<script src=\"https://cdn.jsdelivr.net/npm/reveal.js@5/dist/reveal.js\"></script>\n    "]
  | .paged =>
    [text "\n    ",
     text "<script src=\"https://unpkg.com/pagedjs@0.4/dist/paged.polyfill.js\"></script>\n    "]
  | .math =>
    [text "\n    <link rel=\"stylesheet\"",
     text " href=\"https://cdn.jsdelivr.net/npm/katex@0.16/dist/katex.min.css\">\n    ",
     text "<script src=\"https://cdn.jsdelivr.net/npm/katex@0.16/dist/katex.min.js\"></script>",
     text "\n    <script>\n        const texMacros = \x7b\n            ", macros,
     text "\n        \x7d;\n    </script>\n    "]
  | .mermaid =>
    [text "\n    <script src=\"https://cdn.jsdelivr.net/npm/mermaid@11/dist/mermaid.min.js\">",
     text "</script>\n    "]
  | .tikz => [text "\n    <script src=\"https://tikzjax.com/v1/tikzjax.js\"></script>\n    "]
  | .code =>
    [text "\n    <link rel=\"stylesheet\"",
     text " href=\"https://cdn.jsdelivr.net/npm/highlight.js@11/styles/default.min.css\">\n    ",
     text "<script src=\"https://cdn.jsdelivr.net/npm/highlight.js@11/lib/highlight.min.js\">",
     text "</script>\n    "]
  | .base | .websockets => []

def scriptBlock (key : Key) (script : PageScript) : List Part :=
  [.conditional false key (setup script ++ loading script), text "\n    "]

def guarded : List (Key × PageScript) :=
  [(slidesKey, .slides), (.ofString "IS_PAGED", .paged), (.ofString "HAS_MATH", .math),
   (.ofString "HAS_MERMAID_DIAGRAM", .mermaid), (.ofString "HAS_TIKZ_DIAGRAM", .tikz),
   (.ofString "HAS_CODE", .code)]

def sizeRule : List Part :=
  [text "\n        @page \x7b\n            size: ", .scalar (.ofString "PAGE_WIDTH"), text " ",
   .scalar (.ofString "PAGE_HEIGHT"), text ";\n        \x7d\n        "]

def sizeBlock : Part := .conditional false (.ofString "HAS_PAGE_SIZE") sizeRule

def styles : List Part :=
  [text "<style>\n        ", sizeBlock,
   text "\n        :root \x7b\n            --page-margin: ", .scalar (.ofString "PAGE_MARGIN"),
   text ";\n            --column-count: ", .scalar (.ofString "COLUMN_COUNT"),
   text ";\n            --horizontal-alignment: ", .scalar (.ofString "HORIZONTAL_ALIGNMENT"),
   text ";\n            --paragraph-spacing: ", .scalar (.ofString "PARAGRAPH_SPACING"),
   text ";\n            --paragraph-line-height: ", .scalar (.ofString "PARAGRAPH_LINE_HEIGHT"),
   text ";\n            --paragraph-letter-spacing: ",
   .scalar (.ofString "PARAGRAPH_LETTER_SPACING"),
   text ";\n            --paragraph-indent: ", .scalar (.ofString "PARAGRAPH_INDENT"),
   text ";\n        \x7d\n    </style>\n</head>\n<body class=\"", .scalar (.ofString "DOCTYPE"),
   text "\" data-server-port=\"", .scalar (.ofString "SERVER_PORT"), text "\">\n"]

/-- All that comes before the blocks with the body. -/
def front : List Part :=
  opening ++ loading .base ++ (guarded.flatMap fun entry => scriptBlock entry.1 entry.2) ++ styles

/-- Two blocks for the body, of which one shows by the type of the document. -/
def bodyBlocks (a b gap c d ending : Literal) : List Part :=
  [.conditional false slidesKey [.literal a, .scalar content, .literal b], .literal gap,
   .conditional true slidesKey [.literal c, .scalar content, .literal d], .literal ending]

def body : List Part :=
  bodyBlocks (.ofString "\n<div class=\"reveal\">\n    <div class=\"slides\">\n")
    (.ofString "\n    </div>\n</div>\n") (.ofString "\n") (.ofString "\n<main>\n")
    (.ofString "\n</main>\n") (.ofString "\n</body>\n</html>\n")

def tree : List Part := front ++ body

theorem nested_tree : Part.allFit {} tree = true := by decide +kernel

theorem toList_unlines (lines : List String) :
    (Catalogue.Builtin.unlines lines).toList = lines.flatMap fun line => line.toList ++ ['\n'] := by
  simp [Catalogue.Builtin.unlines, String.toList_join, List.flatMap_map]

/-- The built-in page template is the text of the tree. -/
theorem text_tree : (Catalogue.Builtin.unlines Catalogue.Builtin.pageTemplate).toList =
    Part.writeAll tree := by
  rw [toList_unlines]
  refine eq_of_beq ?_
  simp only [Catalogue.Builtin.pageTemplate, tree, front, opening, loading, guarded, scriptBlock,
    setup, macros, macroEnd, styles, sizeBlock, sizeRule, body, bodyBlocks, text, blockText,
    withKey_eq, MarkerKind.word, List.cons_append, List.nil_append, List.append_assoc,
    List.flatMap_cons, List.flatMap_nil, Part.writeAll, Part.write, Literal.ofString, Key.ofString,
    content, slidesKey, macrosKey, Key.marked_false, Key.marked_true, toList_scriptTag, tagStart,
    PageScript.name]
  repeat rw [String.toList_ofList]
  decide +kernel

end Quire.Page
