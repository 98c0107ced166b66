import Quire.Proofs.Html.Pieces
import Quire.Proofs.Html.Trail
import Quire.Proofs.Html.WellFormed

/-!
# Anchors

The elements of a body that carry an identifier, in the order in which they are written. They are
the headings, figures, tables and tables of contents of the document in preorder, as far as they get
an identifier, and nothing else carries one.
-/

namespace Quire

open Html

namespace Html

def Attribute.ids (attributes : List Attribute) : List String :=
  attributes.filterMap fun a => if a.name = "id" then a.value else none

namespace Attribute

@[simp]
theorem ids_nil : ids [] = [] := rfl

theorem ids_cons (a : Attribute) (rest : List Attribute) :
    ids (a :: rest) = (if a.name = "id" then a.value else none).toList ++ ids rest := by
  rw [ids, List.filterMap_cons]
  cases (if a.name = "id" then a.value else none) <;> rfl

@[simp]
theorem ids_append (a b : List Attribute) : ids (a ++ b) = ids a ++ ids b := List.filterMap_append

@[simp]
theorem ids_optional (name : String) (value : Option String) :
    ids (optional name value) = if name = "id" then value.toList else [] := by
  cases value with
  | none => simp [optional]
  | some value =>
    rw [optional, ids_cons]
    split <;> rfl

@[simp]
theorem ids_style (declarations : List (String × Option String)) :
    ids (style declarations) = [] := by
  rw [style]
  split
  · rfl
  · simp [ids_cons]

@[simp]
theorem ids_classes (names : List (Option String)) : ids (classes names) = [] := by
  rw [classes]
  split
  · rfl
  · simp [ids_cons]

end Attribute

def Piece.ids : Piece → List (String × String)
  | opening name attributes => (Attribute.ids attributes).map (name, ·)
  | selfClosing name attributes => (Attribute.ids attributes).map (name, ·)
  | _ => []

namespace Fragment

/-- The identifiers in a fragment in order, each one with the element that carries it. -/
def ids (fragment : Fragment) : List (String × String) := fragment.pieces.flatMap Piece.ids

variable (a b content : Fragment) (name : String) (attributes : List Attribute)

@[simp]
theorem ids_append : (a ++ b).ids = a.ids ++ b.ids := List.flatMap_append

@[simp]
theorem ids_empty : empty.ids = [] := rfl

@[simp]
theorem ids_text (s : String) : (text s).ids = [] := rfl

@[simp]
theorem ids_lineBreak : lineBreak.ids = [] := rfl

@[simp]
theorem ids_warn (warning : Warning) : (warn warning).ids = [] := rfl

@[simp]
theorem ids_warnIf (condition : Bool) (warning : Warning) :
    (warnIf condition warning).ids = [] := by
  cases condition <;> rfl

@[simp]
theorem ids_verbatim (markup : String) : (ofPiece (.verbatim markup)).ids = [] := rfl

@[simp]
theorem ids_selfClosing :
    (ofPiece (.selfClosing name attributes)).ids = (Attribute.ids attributes).map (name, ·) := by
  simp [ids, Piece.ids]

@[simp]
theorem ids_element : (element name attributes content).ids =
    (Attribute.ids attributes).map (name, ·) ++ content.ids := by
  simp [ids, Piece.ids]

@[simp]
theorem ids_lineElement : (lineElement name attributes content).ids =
    (Attribute.ids attributes).map (name, ·) ++ content.ids := by
  simp [ids, Piece.ids]

@[simp]
theorem ids_blockElement : (blockElement name attributes content).ids =
    (Attribute.ids attributes).map (name, ·) ++ content.ids := by
  simp [ids, Piece.ids]

theorem ids_concat {fragments : List Fragment} (h : ∀ fragment ∈ fragments, fragment.ids = []) :
    (concat fragments).ids = [] := by
  rw [ids, pieces_concat, List.flatMap_assoc, List.flatMap_eq_nil_iff]
  exact h

end Fragment

end Html

inductive Origin where
  | heading (depth : UInt8) (text : String)
  | figure
  | table
  /-- The heading of a table of contents. -/
  | contents
  deriving DecidableEq, Repr

structure Anchor where
  origin : Origin
  element : String
  id : String
  deriving DecidableEq, Repr

/-- The element with an identifier that a node is written with, if it is. -/
def Node.anchor? (context : Context) (cursor : Cursor) : Node → Option Anchor
  | .block (.heading depth content customId) =>
    (context.headingId? cursor customId).map fun id =>
      ⟨.heading depth (Inline.plainTexts content),
        if depth = 0 then "div" else headingTag depth, id⟩
  | .block (.figure ..) =>
    (context.locationLabel .figure cursor.figures).map fun label =>
      ⟨.figure, "figure", "figure-" ++ label⟩
  | .block (.table ..) =>
    (context.locationLabel .table cursor.tables).map fun label =>
      ⟨.table, "table", "table-" ++ label⟩
  | .block (.tableOfContents _ maxDepth) =>
    if contentsEntries context maxDepth = [] then none
    else some ⟨.contents, "h1", "table-of-contents"⟩
  | _ => none

/-- The anchors of nodes that a cursor comes to. -/
def Node.anchors (context : Context) (cursor : Cursor) (nodes : List Node) : List Anchor :=
  (cursor.trail nodes).filterMap fun step => step.2.anchor? context step.1

def Document.anchors (document : Document) (context : Context) : List Anchor :=
  Node.anchors context {} document.nodes

section Anchors

variable (context : Context) (cursor : Cursor)

@[simp]
theorem Node.anchors_nil : Node.anchors context cursor [] = [] := rfl

@[simp]
theorem Node.anchors_cons (node : Node) (rest : List Node) :
    Node.anchors context cursor (node :: rest) =
      (node.anchor? context cursor).toList ++ Node.anchors context (cursor.pass node) rest := by
  rw [anchors, Cursor.trail_cons, List.filterMap_cons]
  cases node.anchor? context cursor <;> rfl

@[simp]
theorem Node.anchors_append (a b : List Node) :
    Node.anchors context cursor (a ++ b) =
      Node.anchors context cursor a ++ Node.anchors context (cursor.passAll a) b := by
  rw [anchors, Cursor.trail_append, List.filterMap_append]
  rfl

theorem Node.anchors_of_inline {nodes : List Node} (h : ∀ node ∈ nodes, ∃ i, node = .inline i) :
    Node.anchors context cursor nodes = [] := by
  induction nodes with
  | nil => rfl
  | cons node rest ih =>
    obtain ⟨⟨i, rfl⟩, later⟩ := List.forall_mem_cons.mp h
    rw [anchors_cons]
    exact ih later

@[simp]
theorem Node.anchors_inlines (content : List Inline) :
    Node.anchors context cursor (Inline.nodesOf content) = [] :=
  anchors_of_inline context cursor fun _ => Inline.of_mem_nodesOf

@[simp]
theorem Node.anchors_cells (cells : List (List Inline)) :
    Node.anchors context cursor (cells.flatMap Inline.nodesOf) = [] := by
  refine anchors_of_inline context cursor fun node mem => ?_
  obtain ⟨cell, -, below⟩ := List.mem_flatMap.mp mem
  exact Inline.of_mem_nodesOf below

end Anchors

section Inlines

theorem LinkTarget.ids_attributes (target : LinkTarget) : Attribute.ids target.attributes = [] := by
  simp [LinkTarget.attributes, Attribute.ids_cons]

theorem ids_referenceLink (target : Option LinkTarget) (label : String) (content : Fragment) :
    (referenceLink target label content).ids = content.ids := by
  cases target with
  | none => simp [referenceLink, Attribute.ids_cons]
  | some target => simp [referenceLink, target.ids_attributes]

theorem ids_whitespace (width height : Option String) : (whitespace width height).ids = [] := by
  unfold whitespace
  split
  · rfl
  · simp

theorem ids_inlineCollapse {full placeholder : Fragment} (isOpen : Bool) (hf : full.ids = [])
    (hp : placeholder.ids = []) : (inlineCollapse full placeholder isOpen).ids = [] := by
  have shown : ∀ f : Fragment, Fragment.ids { pieces := f.pieces } = f.ids := fun _ => rfl
  have unseen : ∀ warnings, Fragment.ids { warnings := warnings } = [] := fun _ => rfl
  cases isOpen <;> simp [inlineCollapse, shown, unseen, Attribute.ids_cons, hf, hp]

variable (link? : String → Option LinkTarget)

mutual

theorem Inline.ids_html : ∀ i : Inline, (i.html link?).ids = []
  | .text _ => by simp [Inline.html]
  | .codeSpan _ color => by cases color <;> simp [Inline.html, colorPreview, Attribute.ids_cons]
  | .emphasis content | .strong content | .strikethrough content => by
    simp [Inline.html, Inline.ids_htmlOf content]
  | .lineBreak => by simp [Inline.html]
  | .link content target => by simp [Inline.html, target.ids_attributes, Inline.ids_htmlOf content]
  | .referenceLink content label => by
    rw [Inline.html, ids_referenceLink, Inline.ids_htmlOf content]
  | .image _ alt title width height => by
    simp [Inline.html, imageAttributes, Attribute.ids_cons]
  | .mathSpan _ => by simp [Inline.html]
  | .textTransform look content => by
    simp [Inline.html, TextLook.attributes, Inline.ids_htmlOf content]
  | .whitespace width height => by rw [Inline.html, ids_whitespace]
  | .inlineCollapse full placeholder isOpen => by
    rw [Inline.html]
    exact ids_inlineCollapse isOpen (Inline.ids_htmlOf full) (Inline.ids_htmlOf placeholder)
  | .pageCounter _ => by simp [Inline.html, Attribute.ids_cons]

theorem Inline.ids_htmlOf : ∀ content : List Inline, (Inline.htmlOf link? content).ids = []
  | [] => by simp [Inline.htmlOf]
  | i :: rest => by simp [Inline.htmlOf, Inline.ids_html i, Inline.ids_htmlOf rest]

end

end Inlines

section Blocks

variable (context : Context)

@[simp]
theorem ids_inlines (content : List Inline) : (context.inlines content).ids = [] :=
  Inline.ids_htmlOf _ content

theorem ids_pageBreak : pageBreak.ids = [] := by simp [pageBreak, Attribute.ids_cons]

theorem ids_attribution (source : Option (List Inline)) :
    (attribution (source.map context.inlines)).ids = [] := by
  cases source <;> simp [attribution, Attribute.ids_cons]

theorem ids_quoteAttributes (kind : Option QuoteKind) :
    Attribute.ids (quoteAttributes context kind) = [] := by
  cases kind with
  | none => rfl
  | some kind =>
    rw [quoteAttributes]
    split <;> simp [Attribute.ids_cons]

@[simp]
theorem ids_orderedList (start : UInt32) (items : Fragment) :
    (orderedList start items).ids = items.ids := by
  rw [orderedList]
  split <;> simp [Attribute.ids_cons]

@[simp]
theorem ids_listItem (checked : Option Bool) (content : Fragment) :
    (listItem checked content).ids = content.ids := by
  rcases checked with _ | _ | _ <;>
    simp [listItem, Attribute.ids_cons, checkbox, Fragment.ids, Piece.ids]

@[simp]
theorem ids_caption (tag kind : String) (label : Option String) (position : CaptionPosition)
    (content : Option String) : (caption context tag kind label position content).ids = [] := by
  cases content <;> simp [caption, Attribute.ids_cons]

theorem ids_captionId (kind : String) (label : Option String) :
    Attribute.ids (captionId kind label) =
      (label.map fun label => kind ++ "-" ++ label).toList := by
  simp [captionId]

theorem ids_figure (label caption : Option String) (child : Fragment) :
    (figure context label caption child).ids =
      (label.map fun label => ("figure", "figure-" ++ label)).toList ++ child.ids := by
  rw [figure, Fragment.ids_blockElement, ids_captionId]
  cases label <;> split <;> simp

theorem ids_tableRow (t : Table) (tag : String) (cells : List (List Inline)) :
    (tableRow context t tag cells).ids = [] := by
  have row : ∀ column, (tableCells context t tag column cells).ids = [] := by
    induction cells with
    | nil => exact fun _ => rfl
    | cons cell rest ih => intro column; simp [tableCells, ih]
  simp [tableRow, row]

theorem ids_table (label : Option String) (t : Table) :
    (Html.table context label t).ids =
      (label.map fun label => ("table", "table-" ++ label)).toList := by
  have rows : (Fragment.concat (t.rows.map (tableRow context t "td"))).ids = [] := by
    refine Fragment.ids_concat fun row mem => ?_
    obtain ⟨cells, -, rfl⟩ := List.mem_map.mp mem
    exact ids_tableRow context t "td" cells
  rw [Html.table, Fragment.ids_blockElement, ids_captionId]
  cases label <;> simp [ids_tableRow, rows]

@[simp]
theorem ids_callout (kind : CalloutKind) (title : Option (List Inline)) (padding : Option String)
    (children : Fragment) :
    (callout kind (title.map context.inlines) padding children).ids = children.ids := by
  cases title <;> simp [callout, calloutHeader, Attribute.ids_cons]

@[simp]
theorem ids_collapse (title : List Inline) (isOpen : Bool) (children : Fragment) :
    (collapse (context.inlines title) isOpen children).ids = children.ids := by
  cases isOpen <;> simp [collapse, Attribute.ids_cons]

@[simp]
theorem ids_classedDiv (name : String) (content : Fragment) :
    (classedDiv name content).ids = content.ids := by
  simp [classedDiv, Attribute.ids_cons]

theorem ids_slideSettings (settings : SlideSettings) : (slideSettings settings).ids = [] := by
  simp [slideSettings, Fragment.ids, Piece.ids]

theorem ids_contents (entries : List ContentsEntry) :
    Fragment.ids { pieces := contents entries } = [] := by
  have closed : ∀ count, (closeLists count).flatMap Piece.ids = [] := by
    intro count
    induction count with
    | zero => rfl
    | succ count ih => simpa [closeLists, List.replicate_succ, closeList, Piece.ids] using ih
  have listed : ∀ depths, (contentsFrom depths entries).flatMap Piece.ids = [] := by
    induction entries with
    | nil => exact fun depths => closed depths.length
    | cons entry rest ih =>
      intro depths
      have start : ∀ depths, (startItem entry.depth depths).1.flatMap Piece.ids = [] := by
        intro depths
        rw [startItem]
        split <;> simp [Piece.ids]
      simp [contentsFrom, closed, start, ih, ContentsEntry.link, Piece.ids, Attribute.ids_cons]
  exact listed []

theorem ids_tableOfContents (title : Option (List Inline)) (maxDepth : UInt8) :
    (tableOfContents context title maxDepth).ids =
      if contentsEntries context maxDepth = [] then [] else [("h1", "table-of-contents")] := by
  have shown : (contentsTitle context title).ids = [] := by
    cases title with
    | some title => exact ids_inlines context title
    | none =>
      rw [contentsTitle]
      cases context.localize "tableofcontents" <;> rfl
  unfold tableOfContents
  cases contentsEntries context maxDepth with
  | nil => rfl
  | cons entry rest => simp [Attribute.ids_cons, shown, ids_contents]

theorem eq_of_tightContent? {blocks : List Block} {content : List Inline}
    (h : tightContent? blocks = some content) : blocks = [.paragraph content] := by
  unfold tightContent? at h
  split at h
  · rw [Option.some.inj h]
  · contradiction

theorem ids_renderHeading (cursor : Cursor) (depth : UInt8) (content : List Inline)
    (customId : Option String) :
    (renderHeading context cursor depth content customId).1.ids =
      ((context.headingId? cursor customId).map fun id =>
        (if depth = 0 then "div" else headingTag depth, id)).toList := by
  by_cases invisible : depth = 0
  · subst invisible
    rw [renderHeading_marker]
    cases context.headingId? cursor customId <;> simp [marker, Attribute.ids_cons]
  · rw [renderHeading_visible context cursor invisible, if_neg invisible]
    cases context.headingId? cursor customId <;> split <;> simp [heading, ids_pageBreak]

mutual

theorem Block.ids_render : ∀ (block : Block) (cursor : Cursor),
    (block.render context cursor).1.ids =
      (Node.anchors context cursor block.nodes).map fun a => (a.element, a.id)
  | .heading depth content customId, cursor => by
    rw [Block.render, Block.nodes, ids_renderHeading]
    cases found : context.headingId? cursor customId <;> simp [Node.anchor?, found]
  | .blockQuote kind source content, cursor => by
    have inner := Block.ids_renderAll content cursor
    rw [Block.render, Block.nodes]
    simp [inner, ids_attribution, ids_quoteAttributes, Node.anchor?, Cursor.pass]
  | .orderedList start items, cursor => by
    have inner := ListItem.ids_renderAll items cursor
    rw [Block.render, Block.nodes]
    simp [inner, Node.anchor?, Cursor.pass]
  | .unorderedList items, cursor => by
    have inner := ListItem.ids_renderAll items cursor
    rw [Block.render, Block.nodes]
    simp [inner, Node.anchor?, Cursor.pass]
  | .table t, cursor => by
    rw [Block.render, Block.nodes, ids_table]
    cases found : context.locationLabel .table cursor.tables <;> simp [Node.anchor?, found]
  | .figure child caption, cursor => by
    have inner := Block.ids_render child cursor.passFigure
    rw [Block.render, Block.nodes]
    cases found : context.locationLabel .figure cursor.figures <;>
      simp [ids_figure, inner, Node.anchor?, Cursor.pass, found]
  | .container children style, cursor => by
    have inner := Block.ids_renderAll children cursor
    rw [Block.render, Block.nodes]
    simp [inner, Node.anchor?, Cursor.pass, containerAttributes]
  | .callout kind title padding children, cursor => by
    have inner := Block.ids_renderAll children cursor
    rw [Block.render, Block.nodes]
    simp [inner, Node.anchor?, Cursor.pass]
  | .collapse title isOpen children, cursor => by
    have inner := Block.ids_renderAll children cursor
    rw [Block.render, Block.nodes]
    simp [inner, Node.anchor?, Cursor.pass]
  | .fullColumnSpan children, cursor | .pageMargin _ children, cursor
  | .numbered _ children, cursor | .expanded children, cursor => by
    have inner := Block.ids_renderAll children cursor
    rw [Block.render, Block.nodes]
    simp [inner, Node.anchor?, Cursor.pass]
  | .tableOfContents title maxDepth, cursor => by
    simp only [Block.render, Block.nodes, leafBlock, ids_tableOfContents]
    by_cases none : contentsEntries context maxDepth = [] <;> simp [Node.anchor?, none]
  | .paragraph content, cursor => by
    simp [Block.render, Block.nodes, leafBlock, Node.anchor?]
  | .codeBlock .., _ | .horizontalRule, _ | .html _, _ | .math _, _ | .mermaidDiagram _, _
  | .tikzDiagram _, _ | .pageBreak, _ | .linkDefinition _, _ | .slides _, _ => by
    simp only [Block.render, Block.nodes, leafBlock]
    simp [Node.anchor?, codeBlock, Attribute.ids_cons, ids_pageBreak, ids_slideSettings]

theorem Block.ids_renderAll : ∀ (blocks : List Block) (cursor : Cursor),
    (Block.renderAll context cursor blocks).1.ids =
      (Node.anchors context cursor (Block.nodesOf blocks)).map fun a => (a.element, a.id)
  | [], _ => by simp [Block.renderAll, Block.nodesOf]
  | block :: rest, cursor => by
    have first := Block.ids_render block cursor
    have later := Block.ids_renderAll rest (block.render context cursor).2
    rw [Block.cursor_render] at later
    rw [Block.renderAll, Block.nodesOf]
    simp [first, later, Block.cursor_render]

theorem ListItem.ids_renderAll : ∀ (items : List ListItem) (cursor : Cursor),
    (ListItem.renderAll context cursor items).1.ids =
      (Node.anchors context cursor (ListItem.nodesOf items)).map fun a => (a.element, a.id)
  | [], _ => by simp [ListItem.renderAll, ListItem.nodesOf]
  | .mk content checked :: rest, cursor => by
    have first := Block.ids_renderAll content cursor
    have later := ListItem.ids_renderAll rest (Block.renderAll context cursor content).2
    rw [Block.cursor_renderAll] at later
    rw [ListItem.renderAll, ListItem.nodesOf]
    simp only [Fragment.ids_append, ids_listItem, Node.anchors_append, List.map_append,
      Block.cursor_renderAll, later, ← first]
    congr 1
    cases tight : tightContent? content with
    | none => rfl
    | some shown =>
      obtain rfl := eq_of_tightContent? tight
      simp [Block.renderAll, Block.render, leafBlock]

end

end Blocks

/-- The elements of a body with an identifier are the anchors of the document, in order. -/
theorem Document.ids_render (document : Document) (context : Context) :
    (document.render context {}).1.ids =
      (document.anchors context).map fun a => (a.element, a.id) :=
  Block.ids_renderAll context document.blocks {}

end Quire
