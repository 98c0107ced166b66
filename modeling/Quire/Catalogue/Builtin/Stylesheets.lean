/-!
# Stylesheets

The lines of the stylesheets that themes are made of.
-/

namespace Quire.Catalogue.Builtin

def globalStyle : List String :=
  ["/* Base rules shared by every layout and color scheme. */",
   "",
   ":root \x7b",
   "    --main-font-size: 16px;",
   "    --main-line-height: 1.5;",
   "    --main-max-width: 800px;",
   "    --caption-font-size: 0.9em;",
   "    --quote-type-label: none;",
   "\x7d",
   "",
   "html \x7b",
   "    font-size: var(--main-font-size);",
   "\x7d",
   "",
   "body \x7b",
   "    margin: 0;",
   "    line-height: var(--paragraph-line-height, var(--main-line-height));",
   "    letter-spacing: var(--paragraph-letter-spacing, normal);",
   "\x7d",
   "",
   "body.plain main \x7b",
   "    max-width: var(--main-max-width);",
   "    margin: 0 auto;",
   "    padding: 2rem 1rem;",
   "\x7d",
   "",
   "p \x7b",
   "    margin: var(--paragraph-spacing, 1em) 0;",
   "    text-indent: var(--paragraph-indent, 0);",
   "    text-align: var(--horizontal-alignment, start);",
   "\x7d",
   "",
   ".page-break,",
   ".marker \x7b",
   "    display: none;",
   "\x7d",
   "",
   ".codespan-content \x7b",
   "    display: inline-flex;",
   "    align-items: center;",
   "    gap: 0.25em;",
   "\x7d",
   "",
   ".color-preview \x7b",
   "    display: inline-block;",
   "    width: 0.8em;",
   "    height: 0.8em;",
   "    border-radius: 50%;",
   "    border: 1px solid currentColor;",
   "\x7d",
   "",
   "figure \x7b",
   "    margin: 1.5em 0;",
   "    text-align: center;",
   "\x7d",
   "",
   "figure img \x7b",
   "    max-width: 100%;",
   "\x7d",
   "",
   ".caption-top,",
   ".caption-bottom \x7b",
   "    font-size: var(--caption-font-size);",
   "\x7d",
   "",
   "[data-element-label]::before \x7b",
   "    content: attr(data-localized-kind) \" \" attr(data-element-label) \": \";",
   "    font-weight: bold;",
   "\x7d",
   "",
   ".caption-top \x7b",
   "    caption-side: top;",
   "\x7d",
   "",
   ".caption-bottom \x7b",
   "    caption-side: bottom;",
   "\x7d",
   "",
   "table \x7b",
   "    border-collapse: collapse;",
   "    margin: 1.5em auto;",
   "\x7d",
   "",
   "th,",
   "td \x7b",
   "    padding: 0.3em 0.8em;",
   "\x7d",
   "",
   "blockquote[data-labeled]::before \x7b",
   "    content: var(--quote-type-label);",
   "    display: block;",
   "    font-weight: bold;",
   "\x7d",
   "",
   "blockquote .attribution \x7b",
   "    text-align: end;",
   "    font-style: italic;",
   "\x7d",
   "",
   ".box \x7b",
   "    border: 1px solid;",
   "    border-radius: 4px;",
   "    margin: 1.5em 0;",
   "\x7d",
   "",
   ".box > header \x7b",
   "    padding: 0.4em 0.8em;",
   "    font-weight: bold;",
   "\x7d",
   "",
   ".box > .box-content \x7b",
   "    padding: 0.4em 0.8em;",
   "\x7d",
   "",
   ".full-column-span \x7b",
   "    column-span: all;",
   "\x7d",
   "",
   ".size-tiny \x7b font-size: 0.5em; \x7d",
   ".size-small \x7b font-size: 0.75em; \x7d",
   ".size-normal \x7b font-size: 1em; \x7d",
   ".size-medium \x7b font-size: 1.25em; \x7d",
   ".size-larger \x7b font-size: 1.5em; \x7d",
   ".size-large \x7b font-size: 2em; \x7d",
   ".size-huge \x7b font-size: 3em; \x7d",
   "",
   ".unresolved-reference \x7b",
   "    text-decoration: underline wavy;",
   "\x7d",
   "",
   ".inline-collapse \x7b",
   "    cursor: pointer;",
   "\x7d",
   "",
   ".page-margin-content \x7b",
   "    display: none;",
   "\x7d",
   "",
   "body.paged .page-margin-content \x7b",
   "    display: block;",
   "\x7d"]

def latexLayout : List String :=
  ["/* Academic layout: serif text, justified paragraphs, numbered headings. */",
   "",
   "@import url('https://fonts.googleapis.com/css2?family=Latin+Modern+Roman&display=swap');",
   "",
   ":root \x7b",
   "    --main-font-family: \"Latin Modern Roman\", \"Computer Modern\", Georgia, serif;",
   "    --heading-font-family: var(--main-font-family);",
   "\x7d",
   "",
   "body \x7b",
   "    font-family: var(--main-font-family);",
   "\x7d",
   "",
   "p \x7b",
   "    text-align: var(--horizontal-alignment, justify);",
   "    hyphens: auto;",
   "\x7d",
   "",
   "h1, h2, h3, h4, h5, h6 \x7b",
   "    font-family: var(--heading-font-family);",
   "    font-weight: bold;",
   "\x7d",
   "",
   "h1[data-location]::before,",
   "h2[data-location]::before,",
   "h3[data-location]::before \x7b",
   "    content: attr(data-location) \" \";",
   "    margin-right: 0.5em;",
   "\x7d",
   "",
   "h1 \x7b font-size: 1.8em; \x7d",
   "h2 \x7b font-size: 1.4em; \x7d",
   "h3 \x7b font-size: 1.2em; \x7d",
   "",
   "nav ol \x7b",
   "    list-style: none;",
   "    padding-left: 1.2em;",
   "\x7d"]

def minimalLayout : List String :=
  ["/* Clean sans-serif layout. */",
   "",
   ":root \x7b",
   "    --main-font-family: system-ui, -apple-system, \"Segoe UI\", Roboto, sans-serif;",
   "\x7d",
   "",
   "body \x7b",
   "    font-family: var(--main-font-family);",
   "\x7d",
   "",
   "h1, h2, h3, h4, h5, h6 \x7b",
   "    font-weight: 600;",
   "    line-height: 1.25;",
   "\x7d",
   "",
   "h1 \x7b font-size: 2.2em; \x7d",
   "h2 \x7b font-size: 1.6em; \x7d",
   "h3 \x7b font-size: 1.25em; \x7d",
   "",
   "pre \x7b",
   "    padding: 1em;",
   "    border-radius: 6px;",
   "    overflow-x: auto;",
   "\x7d"]

def paperwhiteColors : List String :=
  ["/* Dark text on a white page. */",
   "",
   ":root \x7b",
   "    --background-color: #ffffff;",
   "    --text-color: #1f1f1f;",
   "    --link-color: #1a5fb4;",
   "    --code-background-color: #f3f3f3;",
   "    --border-color: #d0d0d0;",
   "\x7d",
   "",
   "body \x7b",
   "    background-color: var(--background-color);",
   "    color: var(--text-color);",
   "\x7d",
   "",
   "a \x7b",
   "    color: var(--link-color);",
   "\x7d",
   "",
   "pre,",
   "code \x7b",
   "    background-color: var(--code-background-color);",
   "\x7d",
   "",
   "th,",
   "td,",
   ".box \x7b",
   "    border-color: var(--border-color);",
   "\x7d",
   "",
   ".tip \x7b --box-accent: #2e7d32; \x7d",
   ".note \x7b --box-accent: #1565c0; \x7d",
   ".warning \x7b --box-accent: #ef6c00; \x7d",
   ".important \x7b --box-accent: #c62828; \x7d"]

def darkoColors : List String :=
  ["/* Light text on a dark page. */",
   "",
   ":root \x7b",
   "    --background-color: #1e1f22;",
   "    --text-color: #e3e3e3;",
   "    --link-color: #8ab4f8;",
   "    --code-background-color: #2b2d31;",
   "    --border-color: #4a4d52;",
   "\x7d",
   "",
   "body \x7b",
   "    background-color: var(--background-color);",
   "    color: var(--text-color);",
   "\x7d",
   "",
   "a \x7b",
   "    color: var(--link-color);",
   "\x7d",
   "",
   "pre,",
   "code \x7b",
   "    background-color: var(--code-background-color);",
   "\x7d",
   "",
   "th,",
   "td,",
   ".box \x7b",
   "    border-color: var(--border-color);",
   "\x7d",
   "",
   ".tip \x7b --box-accent: #81c784; \x7d",
   ".note \x7b --box-accent: #64b5f6; \x7d",
   ".warning \x7b --box-accent: #ffb74d; \x7d",
   ".important \x7b --box-accent: #e57373; \x7d"]

end Quire.Catalogue.Builtin
