import Quire.Context
import Quire.Document.Tree
import Quire.Html.Contents
import Quire.Html.Inline

/-!
# Blocks in HTML

The markup of block nodes. Headings, figures and tables take identifiers and labels from the index
by counting: the n-th one that is written takes the n-th one that was found.
-/

namespace Quire

open Html

/-- How many identifiers and locations have been taken. -/
structure Cursor where
  identifiers : Nat := 0
  headings : Nat := 0
  figures : Nat := 0
  tables : Nat := 0
  deriving DecidableEq, Repr

namespace Cursor

def passIdentifier (cursor : Cursor) : Cursor :=
  { cursor with identifiers := cursor.identifiers + 1 }

def passHeading (cursor : Cursor) : Cursor := { cursor with headings := cursor.headings + 1 }
def passFigure (cursor : Cursor) : Cursor := { cursor with figures := cursor.figures + 1 }
def passTable (cursor : Cursor) : Cursor := { cursor with tables := cursor.tables + 1 }

end Cursor

namespace Context

def linkTarget? (context : Context) (label : String) : Option LinkTarget :=
  (context.index.link? label).map (·.target)

def inlines (context : Context) (content : List Inline) : Fragment :=
  Inline.htmlOf context.linkTarget? content

/-- Whether an identifier is written, given whether its author chose it. -/
def showsIdentifier (context : Context) (isExplicit : Bool) : Bool :=
  context.options.automaticIdentifiers || isExplicit

end Context

namespace Html

def pageBreak : Fragment :=
  .lineElement "div" [⟨"class", some "page-break"⟩, ⟨"hidden", none⟩] .empty

/-- A marker, which is only there for its identifier. -/
def marker (id : Option String) : Fragment :=
  .lineElement "div"
    ([⟨"class", some "marker"⟩, ⟨"hidden", none⟩] ++ Attribute.optional "id" id) .empty

/-- Headings deeper than the deepest element take that one. -/
def headingTag (depth : UInt8) : String := "h" ++ decimal (min depth.toNat 6)

def heading (depth : UInt8) (id label : Option String) (content : Fragment) : Fragment :=
  .lineElement (headingTag depth)
    (Attribute.optional "id" id ++ Attribute.optional "data-location" label) content

def codeBlock (language : Option String) (content : String) (lineNumbers : Bool) : Fragment :=
  .lineElement "pre" []
    (.element "code"
      (Attribute.classes
        [language.map ("language-" ++ ·), if lineNumbers then none else some "nohljsln"])
      (.text content))

/-- A list that counts from one says nothing about its start. -/
def orderedList (start : UInt32) (items : Fragment) : Fragment :=
  .blockElement "ol" (if start = 1 then [] else [⟨"start", some (decimal start.toNat)⟩]) items

def checkbox (checked : Bool) : Fragment :=
  .ofPiece <| .selfClosing "input" <|
    [⟨"type", some "checkbox"⟩, ⟨"disabled", none⟩] ++
      if checked then [⟨"checked", none⟩] else []

def listItem (checked : Option Bool) (content : Fragment) : Fragment :=
  match checked with
  | some checked =>
    .ofPiece (.opening "li" [⟨"class", some "task-list-item"⟩]) ++ checkbox checked ++ content ++
      .ofPiece (.closing "li") ++ .lineBreak
  | none => .lineElement "li" [] content

/-- The words for a kind of quote go to the stylesheet as a quoted text. -/
def quoteAttributes (context : Context) : Option QuoteKind → List Attribute
  | none => []
  | some kind =>
    ⟨"class", some kind.name⟩ ::
      match context.localize kind.name with
      | some label =>
        Attribute.style [("--quote-type-label", some ("'" ++ label ++ "'"))] ++
          [⟨"data-labeled", some ""⟩]
      | none => []

def attribution : Option Fragment → Fragment
  | some content => .lineElement "p" [⟨"class", some "attribution"⟩] content
  | none => .empty

/-- A caption with its label and the word for its kind, which the theme puts in front. -/
def caption (context : Context) (tag kind : String) (label : Option String)
    (position : CaptionPosition) : Option String → Fragment
  | none => .empty
  | some content =>
    .lineElement tag
      (⟨"class", some ("caption-" ++ position.name)⟩ ::
        (Attribute.optional "data-element-label" label ++
          Attribute.optional "data-localized-kind" (context.localize kind)))
      (.text content)

def captionId (kind : String) (label : Option String) : List Attribute :=
  Attribute.optional "id" (label.map fun label => kind ++ "-" ++ label)

def figure (context : Context) (label captionText : Option String) (child : Fragment) :
    Fragment :=
  let position := context.document.layout.captionPositions.figures
  let caption := caption context "figcaption" "figure" label position captionText
  .blockElement "figure" (captionId "figure" label)
    (match position with
    | .top => caption ++ child
    | .bottom => child ++ caption)

/-- The cells of a row from a column on. -/
def tableCells (context : Context) (table : Table) (tag : String) (column : Nat) :
    List (List Inline) → Fragment
  | [] => .empty
  | cell :: rest =>
    .element tag (Attribute.style [("text-align", (table.alignment column).css?)])
        (context.inlines cell) ++
      tableCells context table tag (column + 1) rest

def tableRow (context : Context) (table : Table) (tag : String) (cells : List (List Inline)) :
    Fragment :=
  .lineElement "tr" [] (tableCells context table tag 0 cells)

/-- The caption of a table comes first in its markup; its class tells where it is shown. -/
def table (context : Context) (label : Option String) (t : Table) : Fragment :=
  let position := context.document.layout.captionPositions.tables
  .blockElement "table" (captionId "table" label)
    (caption context "caption" "table" label position t.caption ++
      .blockElement "thead" [] (tableRow context t "th" t.header) ++
      .blockElement "tbody" [] (.concat (t.rows.map (tableRow context t "td"))))

def containerAttributes (style : ContainerStyle) : List Attribute :=
  let borderStyle :=
    if style.borderColor.isSome || style.borderWidth.isSome then some "solid" else none
  Attribute.classes [some "container", if style.fullWidth then some "fullwidth" else none] ++
    Attribute.style
      [("width", style.width), ("height", style.height), ("color", style.foregroundColor),
       ("background-color", style.backgroundColor), ("margin", style.margin),
       ("padding", style.padding), ("border-color", style.borderColor),
       ("border-width", style.borderWidth), ("border-style", borderStyle),
       ("border-radius", style.cornerRadius), ("text-align", style.textAlignment)]

def calloutHeader (padding : Option String) : Option Fragment → Fragment
  | some title =>
    .lineElement "header" (Attribute.style [("padding", padding)]) (.element "h4" [] title)
  | none => .empty

def callout (kind : CalloutKind) (title : Option Fragment) (padding : Option String)
    (children : Fragment) : Fragment :=
  .blockElement "div" (Attribute.classes [some "box", some kind.name])
    (calloutHeader padding title ++
      .blockElement "div"
        (⟨"class", some "box-content"⟩ :: Attribute.style [("padding", padding)]) children)

def collapse (title : Fragment) (isOpen : Bool) (children : Fragment) : Fragment :=
  .lineElement "details" (if isOpen then [⟨"open", none⟩] else [])
    (.lineElement "summary" [] title ++ children)

def flagText (flag : Bool) : String := if flag then "true" else "false"

def slideFlag (name : String) : Option Bool → String
  | some flag => "const " ++ name ++ " = " ++ flagText flag ++ ";"
  | none => ""

def slideTransition : Option Transition → String
  | some transition =>
    "const slides_transitionStyle = '" ++ transition.style.name ++
      "';const slides_transitionSpeed = '" ++ transition.speed.name ++ "';"
  | none => ""

/-- Constants for the slides script. Only fixed names and truth values come in. -/
def slideSettings (settings : SlideSettings) : Fragment :=
  .lineElement "script" []
    (.ofPiece (.script
      (slideFlag "slides_center" settings.centerVertically ++
        slideFlag "slides_showControls" settings.showControls ++
        slideTransition settings.transition)))

/-- The headings down to a depth that are written with an identifier. -/
def contentsEntries (context : Context) (maxDepth : UInt8) : List ContentsEntry :=
  context.index.identifiers.entries.filterMap fun (id, target) =>
    if 1 ≤ target.depth && target.depth ≤ maxDepth && context.showsIdentifier target.isExplicit then
      some ⟨id, target.depth.toNat, target.text⟩
    else none

/-- The title of a table of contents: its own, or the word for one. -/
def contentsTitle (context : Context) : Option (List Inline) → Fragment
  | some title => context.inlines title
  | none =>
    match context.localize "tableofcontents" with
    | some title => .text title
    | none => .empty

/-- A heading and the links, or nothing if there are none. The heading is not part of the tree and
takes no identifier. -/
def tableOfContents (context : Context) (title : Option (List Inline)) (maxDepth : UInt8) :
    Fragment :=
  match contentsEntries context maxDepth with
  | [] => .empty
  | entries =>
    .lineElement "h1" [⟨"id", some "table-of-contents"⟩] (contentsTitle context title) ++
      .blockElement "nav" [] { pieces := contents entries }

def classedDiv (name : String) (content : Fragment) : Fragment :=
  .blockElement "div" [⟨"class", some name⟩] content

/-- The markup of a block that neither holds blocks nor is counted. -/
def leafBlock (context : Context) : Block → Fragment
  | .paragraph content => .lineElement "p" [] (context.inlines content)
  | .codeBlock language content lineNumbers => codeBlock language content lineNumbers
  | .horizontalRule => .ofPiece (.selfClosing "hr" []) ++ .lineBreak
  | .html content => .ofPiece (.verbatim content) ++ .lineBreak
  | .math expression =>
    .warnIf (isEmptySource expression) (.emptySource "formula") ++
      .lineElement "formula" [⟨"data-block", some ""⟩] (.text expression)
  | .mermaidDiagram code =>
    .warnIf (isEmptySource code) (.emptySource "mermaid diagram") ++
      .lineElement "pre" [⟨"class", some "mermaid fill-height"⟩] (.text code)
  | .tikzDiagram code =>
    .warnIf (isEmptySource code) (.emptySource "tikz diagram") ++
      .lineElement "script" [⟨"type", some "text/tikz"⟩] (.text code)
  | .pageBreak => pageBreak
  | .tableOfContents title maxDepth => tableOfContents context title maxDepth
  | .slides settings => slideSettings settings
  | _ => .empty

end Html

/-- The content of a list item that is a single paragraph, which is shown without its element. -/
def tightContent? : List Block → Option (List Inline)
  | [.paragraph content] => some content
  | _ => none

/-- A heading with what the cursor points at. -/
def renderHeading (context : Context) (cursor : Cursor) (depth : UInt8) (content : List Inline)
    (customId : Option String) : Fragment × Cursor :=
  let id :=
    if context.showsIdentifier customId.isSome then
      (context.index.identifierAt? cursor.identifiers).map (·.1)
    else none
  let cursor := cursor.passIdentifier
  if depth = 0 then (marker id, cursor)
  else
    let label := context.locationLabel .heading cursor.headings
    let break_ := if context.breaksPage depth then pageBreak else .empty
    (break_ ++ heading depth id label (context.inlines content), cursor.passHeading)

mutual

/-- The markup of a block, and the cursor behind it. -/
def Block.render (context : Context) (cursor : Cursor) : Block → Fragment × Cursor
  | .heading depth content customId => renderHeading context cursor depth content customId
  | .blockQuote kind source content =>
    let (content, cursor) := Block.renderAll context cursor content
    (.blockElement "blockquote" (quoteAttributes context kind)
      (content ++ attribution (source.map context.inlines)), cursor)
  | .orderedList start items =>
    let (items, cursor) := ListItem.renderAll context cursor items
    (orderedList start items, cursor)
  | .unorderedList items =>
    let (items, cursor) := ListItem.renderAll context cursor items
    (.blockElement "ul" [] items, cursor)
  | .table t =>
    let label := context.locationLabel .table cursor.tables
    (Html.table context label t, cursor.passTable)
  | .figure child captionText =>
    let label := context.locationLabel .figure cursor.figures
    let (child, cursor) := child.render context cursor.passFigure
    (Html.figure context label captionText child, cursor)
  | .container children style =>
    let (children, cursor) := Block.renderAll context cursor children
    (.blockElement "div" (containerAttributes style) children, cursor)
  | .callout kind title padding children =>
    let (children, cursor) := Block.renderAll context cursor children
    (Html.callout kind (title.map context.inlines) padding children, cursor)
  | .collapse title isOpen children =>
    let (children, cursor) := Block.renderAll context cursor children
    (Html.collapse (context.inlines title) isOpen children, cursor)
  | .fullColumnSpan children =>
    let (children, cursor) := Block.renderAll context cursor children
    (classedDiv "full-column-span" children, cursor)
  | .numbered _ children => Block.renderAll context cursor children
  | .expanded children => Block.renderAll context cursor children
  | .pageMargin position children =>
    let (children, cursor) := Block.renderAll context cursor children
    (classedDiv ("page-margin-content page-margin-" ++ position.name) children, cursor)
  | leaf => (leafBlock context leaf, cursor)

def Block.renderAll (context : Context) (cursor : Cursor) : List Block → Fragment × Cursor
  | [] => (.empty, cursor)
  | block :: rest =>
    let (first, cursor) := block.render context cursor
    let (others, cursor) := Block.renderAll context cursor rest
    (first ++ others, cursor)

def ListItem.renderAll (context : Context) (cursor : Cursor) : List ListItem → Fragment × Cursor
  | [] => (.empty, cursor)
  | .mk content checked :: rest =>
    let (loose, cursor) := Block.renderAll context cursor content
    let shown := match tightContent? content with
      | some tight => context.inlines tight
      | none => loose
    let (others, cursor) := ListItem.renderAll context cursor rest
    (listItem checked shown ++ others, cursor)

end

def Document.render (document : Document) (context : Context) (cursor : Cursor) :
    Fragment × Cursor :=
  Block.renderAll context cursor document.blocks

end Quire
