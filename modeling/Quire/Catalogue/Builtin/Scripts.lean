/-!
# Scripts

The lines of the scripts that a page may need.
-/

namespace Quire.Catalogue.Builtin

def pageScript : List String :=
  ["// Runtime shared by every document type.",
   "",
   "const folio = \x7b",
   "    readyCallbacks: [],",
   "",
   "    onReady(callback) \x7b",
   "        this.readyCallbacks.push(callback);",
   "    \x7d,",
   "",
   "    ready() \x7b",
   "        this.readyCallbacks.forEach((callback) => callback());",
   "    \x7d,",
   "\x7d;",
   "",
   "function setupInlineCollapses() \x7b",
   "    document.querySelectorAll('.inline-collapse').forEach((span) => \x7b",
   "        span.addEventListener('click', () => \x7b",
   "            const collapsed = span.dataset.collapsed === 'true';",
   "            span.innerHTML = collapsed ? span.dataset.fullText : span.dataset.collapsedText;",
   "            span.dataset.collapsed = String(!collapsed);",
   "        \x7d);",
   "    \x7d);",
   "\x7d",
   "",
   "function connectPreviewServer() \x7b",
   "    const port = document.body.dataset.serverPort;",
   "    if (!port) \x7b",
   "        return;",
   "    \x7d",
   "    const script = document.createElement('script');",
   "    script.src = 'script/websockets.js';",
   "    document.head.appendChild(script);",
   "\x7d",
   "",
   "document.addEventListener('DOMContentLoaded', () => \x7b",
   "    setupInlineCollapses();",
   "    connectPreviewServer();",
   "    // Paged and slides documents call ready() once their layout is done.",
   "    if (document.body.classList.contains('plain')) \x7b",
   "        folio.ready();",
   "    \x7d",
   "\x7d);"]

def slidesScript : List String :=
  ["// Slides: one section per top-level page break.",
   "",
   "function splitIntoSlides(container) \x7b",
   "    const slides = [];",
   "    let current = document.createElement('section');",
   "    Array.from(container.children).forEach((child) => \x7b",
   "        if (child.classList.contains('page-break')) \x7b",
   "            if (current.childElementCount > 0) \x7b",
   "                slides.push(current);",
   "            \x7d",
   "            current = document.createElement('section');",
   "        \x7d else \x7b",
   "            current.appendChild(child);",
   "        \x7d",
   "    \x7d);",
   "    if (current.childElementCount > 0) \x7b",
   "        slides.push(current);",
   "    \x7d",
   "    container.replaceChildren(...slides);",
   "\x7d",
   "",
   "// Globals set by an optional slides configuration block in the body.",
   "function slidesConfiguration() \x7b",
   "    return \x7b",
   "        center: typeof slides_center !== 'undefined' ? slides_center : undefined,",
   "        controls: typeof slides_showControls !== 'undefined' ? slides_showControls : undefined,",
   "        transition: typeof slides_transitionStyle !== 'undefined' ? slides_transitionStyle : undefined,",
   "        transitionSpeed: typeof slides_transitionSpeed !== 'undefined' ? slides_transitionSpeed : undefined,",
   "    \x7d;",
   "\x7d",
   "",
   "document.addEventListener('DOMContentLoaded', () => \x7b",
   "    splitIntoSlides(document.querySelector('.reveal .slides'));",
   "    const config = slidesConfiguration();",
   "    Reveal.initialize(\x7b",
   "        hash: true,",
   "        center: config.center ?? true,",
   "        controls: config.controls ?? true,",
   "        transition: config.transition ?? 'slide',",
   "        transitionSpeed: config.transitionSpeed ?? 'default',",
   "    \x7d).then(() => \x7b",
   "        const total = Reveal.getTotalSlides();",
   "        document.querySelectorAll('.total-page-number').forEach((e) => (e.textContent = total));",
   "        Reveal.on('slidechanged', (event) => \x7b",
   "            document.querySelectorAll('.current-page-number').forEach((e) => (e.textContent = event.indexh + 1));",
   "        \x7d);",
   "        folio.ready();",
   "    \x7d);",
   "\x7d);"]

def pagedScript : List String :=
  ["// Paged documents: page breaks and margin content for paged.js.",
   "",
   "class FolioPagedHandler extends Paged.Handler \x7b",
   "    afterRendered(pages) \x7b",
   "        document.querySelectorAll('.total-page-number').forEach((e) => (e.textContent = pages.length));",
   "        pages.forEach((page, index) => \x7b",
   "            page.element.querySelectorAll('.current-page-number').forEach((e) => (e.textContent = index + 1));",
   "        \x7d);",
   "        folio.ready();",
   "    \x7d",
   "\x7d",
   "",
   "Paged.registerHandlers(FolioPagedHandler);",
   "",
   "document.addEventListener('DOMContentLoaded', () => \x7b",
   "    document.querySelectorAll('.page-break').forEach((element) => \x7b",
   "        element.removeAttribute('hidden');",
   "        element.style.breakAfter = 'page';",
   "    \x7d);",
   "\x7d);"]

def mathScript : List String :=
  ["// Renders formulas with KaTeX. `texMacros` is defined by the page.",
   "",
   "function renderFormulas() \x7b",
   "    document.querySelectorAll('formula').forEach((formula) => \x7b",
   "        const block = formula.hasAttribute('data-block');",
   "        katex.render(formula.textContent, formula, \x7b",
   "            displayMode: block,",
   "            throwOnError: false,",
   "            macros: texMacros,",
   "        \x7d);",
   "    \x7d);",
   "\x7d",
   "",
   "folio.onReady(renderFormulas);"]

def mermaidScript : List String :=
  ["// Renders Mermaid diagrams once the layout is final.",
   "",
   "mermaid.initialize(\x7b startOnLoad: false \x7d);",
   "",
   "folio.onReady(() => \x7b",
   "    mermaid.run(\x7b querySelector: 'pre.mermaid' \x7d);",
   "\x7d);"]

def tikzScript : List String :=
  ["// TikzJax compiles every <script type=\"text/tikz\"> on load.",
   "// Diagrams are wrapped so themes can center and scale them.",
   "",
   "document.addEventListener('DOMContentLoaded', () => \x7b",
   "    document.querySelectorAll('script[type=\"text/tikz\"]').forEach((script) => \x7b",
   "        const wrapper = document.createElement('div');",
   "        wrapper.className = 'tikz';",
   "        script.replaceWith(wrapper);",
   "        wrapper.appendChild(script);",
   "    \x7d);",
   "\x7d);"]

def codeScript : List String :=
  ["// Syntax highlighting for code blocks.",
   "",
   "folio.onReady(() => \x7b",
   "    document.querySelectorAll('pre code').forEach((block) => \x7b",
   "        hljs.highlightElement(block);",
   "        if (!block.classList.contains('nohljsln')) \x7b",
   "            block.classList.add('hljs-line-numbers');",
   "        \x7d",
   "    \x7d);",
   "\x7d);"]

def websocketsScript : List String :=
  ["// Live preview: reloads the page when the preview server says so.",
   "",
   "(() => \x7b",
   "    const port = document.body.dataset.serverPort;",
   "    const socket = new WebSocket(`ws://localhost:$\x7bport\x7d/reload`);",
   "",
   "    socket.addEventListener('message', () => \x7b",
   "        location.reload();",
   "    \x7d);",
   "",
   "    socket.addEventListener('close', () => \x7b",
   "        console.warn('Preview server disconnected');",
   "    \x7d);",
   "\x7d)();"]

end Quire.Catalogue.Builtin
