/-!
# The page template

The lines of the template that a body is put into.
-/

namespace Quire.Catalogue.Builtin

def pageTemplate : List String :=
  ["<!DOCTYPE html>",
   "<html lang=\"[[LANG]]\">",
   "<head>",
   "    <meta charset=\"UTF-8\">",
   "    <meta name=\"viewport\" content=\"width=device-width, initial-scale=1.0\">",
   "    <title>[[TITLE]]</title>",
   "    <link rel=\"stylesheet\" href=\"theme/theme.css\">",
   "    <script src=\"script/script.js\"></script>",
   "    [[if:IS_SLIDES]]",
   "    <link rel=\"stylesheet\" href=\"https://cdn.jsdelivr.net/npm/reveal.js@5/dist/reveal.css\">",
   "    <script src=\"https://cdn.jsdelivr.net/npm/reveal.js@5/dist/reveal.js\"></script>",
   "    <script src=\"script/slides.js\"></script>",
   "    [[endif:IS_SLIDES]]",
   "    [[if:IS_PAGED]]",
   "    <script src=\"https://unpkg.com/pagedjs@0.4/dist/paged.polyfill.js\"></script>",
   "    <script src=\"script/paged.js\"></script>",
   "    [[endif:IS_PAGED]]",
   "    [[if:HAS_MATH]]",
   "    <link rel=\"stylesheet\" href=\"https://cdn.jsdelivr.net/npm/katex@0.16/dist/katex.min.css\">",
   "    <script src=\"https://cdn.jsdelivr.net/npm/katex@0.16/dist/katex.min.js\"></script>",
   "    <script>",
   "        const texMacros = \x7b",
   "            [[for:TEX_MACROS]][[TEX_MACROS]],",
   "            [[endfor:TEX_MACROS]]",
   "        \x7d;",
   "    </script>",
   "    <script src=\"script/math.js\"></script>",
   "    [[endif:HAS_MATH]]",
   "    [[if:HAS_MERMAID_DIAGRAM]]",
   "    <script src=\"https://cdn.jsdelivr.net/npm/mermaid@11/dist/mermaid.min.js\"></script>",
   "    <script src=\"script/mermaid.js\"></script>",
   "    [[endif:HAS_MERMAID_DIAGRAM]]",
   "    [[if:HAS_TIKZ_DIAGRAM]]",
   "    <script src=\"https://tikzjax.com/v1/tikzjax.js\"></script>",
   "    <script src=\"script/tikz.js\"></script>",
   "    [[endif:HAS_TIKZ_DIAGRAM]]",
   "    [[if:HAS_CODE]]",
   "    <link rel=\"stylesheet\" href=\"https://cdn.jsdelivr.net/npm/highlight.js@11/styles/default.min.css\">",
   "    <script src=\"https://cdn.jsdelivr.net/npm/highlight.js@11/lib/highlight.min.js\"></script>",
   "    <script src=\"script/code.js\"></script>",
   "    [[endif:HAS_CODE]]",
   "    <style>",
   "        [[if:HAS_PAGE_SIZE]]",
   "        @page \x7b",
   "            size: [[PAGE_WIDTH]] [[PAGE_HEIGHT]];",
   "        \x7d",
   "        [[endif:HAS_PAGE_SIZE]]",
   "        :root \x7b",
   "            --page-margin: [[PAGE_MARGIN]];",
   "            --column-count: [[COLUMN_COUNT]];",
   "            --horizontal-alignment: [[HORIZONTAL_ALIGNMENT]];",
   "            --paragraph-spacing: [[PARAGRAPH_SPACING]];",
   "            --paragraph-line-height: [[PARAGRAPH_LINE_HEIGHT]];",
   "            --paragraph-letter-spacing: [[PARAGRAPH_LETTER_SPACING]];",
   "            --paragraph-indent: [[PARAGRAPH_INDENT]];",
   "        \x7d",
   "    </style>",
   "</head>",
   "<body class=\"[[DOCTYPE]]\" data-server-port=\"[[SERVER_PORT]]\">",
   "[[if:IS_SLIDES]]",
   "<div class=\"reveal\">",
   "    <div class=\"slides\">",
   "[[CONTENT]]",
   "    </div>",
   "</div>",
   "[[endif:IS_SLIDES]]",
   "[[if:!IS_SLIDES]]",
   "<main>",
   "[[CONTENT]]",
   "</main>",
   "[[endif:!IS_SLIDES]]",
   "</body>",
   "</html>"]

end Quire.Catalogue.Builtin
