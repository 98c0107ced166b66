import Quire.Proofs.Html.References

/-!
# Warnings of a render

A render warns of links by label that stand for nothing and of sources with nothing in them. Its
warnings are those of the nodes that are shown, one for each, in preorder.
-/

namespace Quire

open Html

/-- The warning about a source, which is due when the source is empty up to white space. -/
def Warning.ofSource? (node source : String) : Option Warning :=
  if isEmptySource source then some (.emptySource node) else none

/-- The warning that a node gives by itself, given what labels stand for. -/
def Node.warning? (target? : String → Option LinkTarget) : Node → Option Warning
  | .inline (.referenceLink _ label) =>
    if (target? label).isNone then some (.unresolvedReference label) else none
  | .inline (.mathSpan expression) => Warning.ofSource? "inline formula" expression
  | .block (.math expression) => Warning.ofSource? "formula" expression
  | .block (.mermaidDiagram code) => Warning.ofSource? "mermaid diagram" code
  | .block (.tikzDiagram code) => Warning.ofSource? "tikz diagram" code
  | _ => none

def Node.warnings (context : Context) (nodes : List Node) : List Warning :=
  (nodes.flatMap (Node.shown context)).filterMap (Node.warning? context.linkTarget?)

namespace Html.Fragment

section Warnings

variable (content : Fragment) (name : String) (attributes : List Attribute)

@[simp]
theorem warnings_empty : empty.warnings = [] := rfl

@[simp]
theorem warnings_text (text : String) : (Fragment.text text).warnings = [] := rfl

@[simp]
theorem warnings_lineBreak : lineBreak.warnings = [] := rfl

@[simp]
theorem warnings_lineElement :
    (lineElement name attributes content).warnings = content.warnings := by
  simp [lineElement]

@[simp]
theorem warnings_blockElement :
    (blockElement name attributes content).warnings = content.warnings := by
  simp [blockElement]

/-- A source is warned of in front of its element. -/
theorem warnings_source (node source : String) (quiet : content.warnings = []) :
    (warnIf (isEmptySource source) (.emptySource node) ++ content).warnings =
      (Warning.ofSource? node source).toList := by
  rw [warnings_append, warnings_warnIf, quiet, List.append_nil, Warning.ofSource?]
  cases isEmptySource source <;> rfl

@[simp]
theorem warnings_referenceLink (target : Option LinkTarget) (label : String) :
    (referenceLink target label content).warnings =
      (if target.isNone then [.unresolvedReference label] else []) ++ content.warnings := by
  cases target <;> simp [referenceLink]

@[simp]
theorem warnings_colorPreview (color : Option String) : (colorPreview color).warnings = [] := by
  cases color <;> simp [colorPreview]

@[simp]
theorem warnings_whitespace (width height : Option String) :
    (whitespace width height).warnings = [] := by
  cases width <;> cases height <;> simp [whitespace]

@[simp]
theorem warnings_listItem (checked : Option Bool) :
    (listItem checked content).warnings = content.warnings := by
  cases checked <;> simp [listItem, checkbox]

@[simp]
theorem warnings_orderedList (start : UInt32) :
    (orderedList start content).warnings = content.warnings :=
  warnings_blockElement ..

@[simp]
theorem warnings_classedDiv : (classedDiv name content).warnings = content.warnings :=
  warnings_blockElement ..

@[simp]
theorem warnings_callout (kind : CalloutKind) (title : Option Fragment)
    (padding : Option String) : (callout kind title padding content).warnings =
      (calloutHeader padding title).warnings ++ content.warnings := by
  simp [callout]

@[simp]
theorem warnings_collapse (title : Fragment) (isOpen : Bool) :
    (collapse title isOpen content).warnings = title.warnings ++ content.warnings := by
  simp [collapse]

@[simp]
theorem warnings_caption (context : Context) (tag kind : String) (label : Option String)
    (position : CaptionPosition) (text : Option String) :
    (caption context tag kind label position text).warnings = [] := by
  cases text <;> simp [caption]

@[simp]
theorem warnings_figure (context : Context) (label text : Option String) :
    (figure context label text content).warnings = content.warnings := by
  rw [figure]
  cases context.document.layout.captionPositions.figures <;> simp

end Warnings

end Html.Fragment

section Shown

variable (context : Context)

namespace Node

@[simp]
theorem warnings_nil : warnings context [] = [] := rfl

@[simp]
theorem warnings_append (a b : List Node) :
    warnings context (a ++ b) = warnings context a ++ warnings context b := by
  simp [warnings]

/-- A node warns before what is shown below it. -/
theorem warnings_node {node : Node} {below : List Node}
    (shown : node.shownChildren context = below) :
    warnings context [node] =
      (node.warning? context.linkTarget?).toList ++ warnings context below := by
  rw [warnings, List.flatMap_singleton, shown_eq_cons, shown, List.filterMap_cons, warnings]
  cases node.warning? context.linkTarget? <;> rfl

/-- A node that gives no warning by itself. -/
theorem warnings_quiet {node : Node} {below : List Node}
    (quiet : node.warning? context.linkTarget? = none)
    (shown : node.shownChildren context = below) :
    warnings context [node] = warnings context below := by
  rw [warnings_node context shown, quiet]
  rfl

/-- A node with nothing shown below it. -/
theorem warnings_leaf {node : Node} (shown : node.shownChildren context = []) :
    warnings context [node] = (node.warning? context.linkTarget?).toList := by
  rw [warnings_node context shown, warnings_nil, List.append_nil]

end Node

mutual

/-- Running text warns of what is shown in it. -/
theorem Inline.warnings_html : ∀ i : Inline,
    (i.html context.linkTarget?).warnings = Node.warnings context [.inline i]
  | .emphasis content | .strong content | .strikethrough content | .link content _
  | .textTransform _ content => by
    rw [Node.warnings_quiet context rfl rfl, Inline.html, Fragment.warnings_element]
    exact Inline.warnings_htmlOf content
  | .referenceLink content label => by
    rw [Node.warnings_node context rfl, Inline.html, Fragment.warnings_referenceLink,
      Inline.warnings_htmlOf content, Node.warning?]
    cases context.linkTarget? label <;> rfl
  | .inlineCollapse full placeholder isOpen => by
    rw [Node.warnings_quiet context rfl rfl, Inline.html, Fragment.warnings_inlineCollapse,
      Inline.warnings_htmlOf full, Inline.warnings_htmlOf placeholder, ← Node.warnings_append,
      ← List.map_append]
    rfl
  | .mathSpan expression => by
    rw [Node.warnings_leaf context rfl]
    exact Fragment.warnings_source _ _ expression rfl
  | .codeSpan _ color => by
    rw [Node.warnings_leaf context rfl, Inline.html]
    simp [Node.warning?]
  | .whitespace width height => by
    rw [Node.warnings_leaf context rfl, Inline.html, Fragment.warnings_whitespace]
    rfl
  | .text _ | .lineBreak | .image .. | .pageCounter _ => by
    rw [Node.warnings_leaf context rfl]
    rfl

theorem Inline.warnings_htmlOf : ∀ content : List Inline,
    (Inline.htmlOf context.linkTarget? content).warnings =
      Node.warnings context (content.map .inline)
  | [] => rfl
  | i :: rest => by
    rw [Inline.htmlOf, Fragment.warnings_append, Inline.warnings_html i,
      Inline.warnings_htmlOf rest, ← Node.warnings_append]
    rfl

end

theorem warnings_inlines (content : List Inline) :
    (context.inlines content).warnings = Node.warnings context (content.map .inline) :=
  Inline.warnings_htmlOf context content

theorem warnings_attribution (source : Option (List Inline)) :
    (attribution (source.map context.inlines)).warnings =
      Node.warnings context ((source.getD []).map .inline) := by
  cases source with
  | none => rfl
  | some source => exact (Fragment.warnings_lineElement ..).trans (warnings_inlines context source)

theorem warnings_calloutHeader (padding : Option String) (title : Option (List Inline)) :
    (calloutHeader padding (title.map context.inlines)).warnings =
      Node.warnings context ((title.getD []).map .inline) := by
  cases title with
  | none => rfl
  | some title =>
    rw [Option.map_some, calloutHeader, Fragment.warnings_lineElement, Fragment.warnings_element]
    exact warnings_inlines context title

theorem warnings_tableRow (t : Table) (tag : String) (cells : List (List Inline)) :
    (tableRow context t tag cells).warnings =
      Node.warnings context (cells.flatten.map .inline) := by
  have row : ∀ column, (tableCells context t tag column cells).warnings =
      Node.warnings context (cells.flatten.map .inline) := by
    induction cells with
    | nil => exact fun _ => rfl
    | cons cell rest ih =>
      intro column
      rw [tableCells, Fragment.warnings_append, Fragment.warnings_element, warnings_inlines, ih,
        List.flatten_cons, List.map_append, Node.warnings_append]
  rw [tableRow, Fragment.warnings_lineElement, row]

/-- The cells of a table warn in the order of its rows, those of the header first. -/
theorem warnings_table (label : Option String) (t : Table) :
    (Html.table context label t).warnings =
      Node.warnings context (t.cells.flatten.map .inline) := by
  have rows : ∀ rows : List (List (List Inline)),
      (Fragment.concat (rows.map (tableRow context t "td"))).warnings =
        Node.warnings context (rows.flatten.flatten.map .inline) := by
    intro rows
    induction rows with
    | nil => rfl
    | cons row rest ih =>
      rw [List.flatten_cons, List.flatten_append, List.map_append, Node.warnings_append, ← ih,
        ← warnings_tableRow context t "td" row]
      rfl
  simp only [Html.table, Fragment.warnings_blockElement, Fragment.warnings_append,
    Fragment.warnings_caption, List.nil_append, warnings_tableRow, rows, Table.cells,
    List.flatten_append, List.map_append, Node.warnings_append]

theorem warnings_tableOfContents (title : Option (List Inline)) (maxDepth : UInt8) :
    (tableOfContents context title maxDepth).warnings =
      Node.warnings context [.block (.tableOfContents title maxDepth)] := by
  rw [Node.warnings_quiet context rfl rfl, tableOfContents, Node.shownChildren]
  cases contentsEntries context maxDepth with
  | nil => rfl
  | cons entry rest =>
    have heading : (contentsTitle context title).warnings =
        Node.warnings context ((title.getD []).map .inline) := by
      cases title with
      | some title => exact warnings_inlines context title
      | none =>
        rw [contentsTitle]
        cases context.localize "tableofcontents" <;> rfl
    rw [Fragment.warnings_append, Fragment.warnings_lineElement, heading,
      Fragment.warnings_blockElement, List.append_nil, if_neg (List.cons_ne_nil _ _)]

theorem warnings_renderHeading (cursor : Cursor) (depth : UInt8) (content : List Inline)
    (customId : Option String) :
    (renderHeading context cursor depth content customId).1.warnings =
      Node.warnings context [.block (.heading depth content customId)] := by
  rw [Node.warnings_quiet context rfl rfl, Node.shownChildren]
  by_cases invisible : depth = 0
  · subst invisible
    rw [renderHeading_marker, if_pos rfl]
    rfl
  · have break_ : (if context.breaksPage depth then pageBreak else .empty).warnings = [] := by
      split <;> rfl
    rw [renderHeading_visible context cursor invisible, if_neg invisible,
      Fragment.warnings_append, break_, heading, Fragment.warnings_lineElement, warnings_inlines]
    rfl

mutual

/-- A block warns of what is shown of it, wherever it is rendered. -/
theorem Block.warnings_render : ∀ (block : Block) (cursor : Cursor),
    (block.render context cursor).1.warnings = Node.warnings context [.block block]
  | .heading depth content customId, cursor => by
    rw [Block.render]
    exact warnings_renderHeading context cursor depth content customId
  | .blockQuote kind source content, cursor => by
    rw [Node.warnings_quiet context rfl rfl, Block.render, Fragment.warnings_blockElement,
      Fragment.warnings_append, Block.warnings_renderAll content cursor, warnings_attribution,
      ← Node.warnings_append]
    rfl
  | .orderedList start items, cursor => by
    rw [Node.warnings_quiet context rfl rfl, Block.render, Fragment.warnings_orderedList]
    exact ListItem.warnings_renderAll items cursor
  | .unorderedList items, cursor => by
    rw [Node.warnings_quiet context rfl rfl, Block.render, Fragment.warnings_blockElement]
    exact ListItem.warnings_renderAll items cursor
  | .table t, cursor => by
    rw [Node.warnings_quiet context rfl rfl, Block.render]
    exact warnings_table context _ t
  | .figure child caption, cursor => by
    rw [Node.warnings_quiet context rfl rfl, Block.render, Fragment.warnings_figure]
    exact Block.warnings_render child cursor.passFigure
  | .container children style, cursor => by
    rw [Node.warnings_quiet context rfl rfl, Block.render, Fragment.warnings_blockElement]
    exact Block.warnings_renderAll children cursor
  | .callout kind title padding children, cursor => by
    rw [Node.warnings_quiet context rfl rfl, Block.render, Fragment.warnings_callout,
      warnings_calloutHeader, Block.warnings_renderAll children cursor,
      ← Node.warnings_append]
    rfl
  | .collapse title isOpen children, cursor => by
    rw [Node.warnings_quiet context rfl rfl, Block.render, Fragment.warnings_collapse,
      warnings_inlines, Block.warnings_renderAll children cursor, ← Node.warnings_append]
    rfl
  | .fullColumnSpan children, cursor | .pageMargin _ children, cursor => by
    rw [Node.warnings_quiet context rfl rfl, Block.render, Fragment.warnings_classedDiv]
    exact Block.warnings_renderAll children cursor
  | .numbered _ children, cursor | .expanded children, cursor => by
    rw [Node.warnings_quiet context rfl rfl, Block.render]
    exact Block.warnings_renderAll children cursor
  | .tableOfContents title maxDepth, _ => warnings_tableOfContents context title maxDepth
  | .paragraph content, _ => by
    rw [Node.warnings_quiet context rfl rfl]
    exact (Fragment.warnings_lineElement ..).trans (warnings_inlines context content)
  | .math source, _ | .mermaidDiagram source, _ | .tikzDiagram source, _ => by
    rw [Node.warnings_leaf context rfl]
    exact Fragment.warnings_source _ _ source rfl
  | .codeBlock .., _ | .horizontalRule, _ | .html _, _ | .pageBreak, _ | .linkDefinition _, _
  | .slides _, _ => by
    rw [Node.warnings_leaf context rfl]
    rfl

theorem Block.warnings_renderAll : ∀ (blocks : List Block) (cursor : Cursor),
    (Block.renderAll context cursor blocks).1.warnings =
      Node.warnings context (blocks.map .block)
  | [], _ => rfl
  | block :: rest, cursor => by
    rw [Block.renderAll, Fragment.warnings_append, Block.warnings_render block cursor,
      Block.warnings_renderAll rest, ← Node.warnings_append]
    rfl

theorem ListItem.warnings_renderAll : ∀ (items : List ListItem) (cursor : Cursor),
    (ListItem.renderAll context cursor items).1.warnings =
      Node.warnings context ((items.flatMap ListItem.content).map .block)
  | [], _ => rfl
  | .mk content checked :: rest, cursor => by
    have loose := Block.warnings_renderAll content cursor
    rw [ListItem.renderAll, Fragment.warnings_append, Fragment.warnings_listItem,
      ListItem.warnings_renderAll rest, List.flatMap_cons, List.map_append, Node.warnings_append]
    cases tight : tightContent? content with
    | none => exact congrArg (· ++ _) loose
    | some shown =>
      -- the only paragraph of an item warns of what is in its text
      obtain rfl := eq_of_tightContent? tight
      refine congrArg (· ++ _) ((warnings_inlines context shown).trans ?_)
      have alone : Node.warnings context [.block (.paragraph shown)] =
          Node.warnings context (shown.map .inline) := Node.warnings_quiet context rfl rfl
      exact alone.symm

end

end Shown

/-- Either nothing below a node is shown or all of it. -/
theorem Node.shownChildren_eq (context : Context) (node : Node) :
    node.shownChildren context = [] ∨ node.shownChildren context = node.children := by
  unfold shownChildren
  split
  · exact .inl rfl
  · split
    · exact .inl rfl
    · exact .inr rfl
  · split
    · exact .inl rfl
    · exact .inr rfl
  · exact .inr rfl

/-- What is shown of a node stands among its nodes in the same order. -/
theorem Node.shown_sublist (context : Context) (node : Node) :
    (node.shown context).Sublist node.nodes := by
  have below : ∀ nodes : List Node, (∀ child ∈ nodes, child ∈ node.children) →
      (nodes.flatMap (shown context)).Sublist (nodes.flatMap Node.nodes) := by
    intro nodes inside
    induction nodes with
    | nil => exact .slnil
    | cons child rest ih =>
      have smaller := length_nodes_of_mem_children (inside child List.mem_cons_self)
      rw [List.flatMap_cons, List.flatMap_cons]
      exact (shown_sublist context child).append
        (ih fun other mem => inside other (List.mem_cons_of_mem _ mem))
  rw [shown_eq_cons, nodes_eq_cons]
  refine .cons_cons _ ?_
  rcases shownChildren_eq context node with none | all
  · rw [none]
    exact List.nil_sublist _
  · rw [all]
    exact below _ fun _ mem => mem
termination_by node.nodes.length

theorem Document.shown_sublist (document : Document) (context : Context) :
    (document.shown context).Sublist document.nodes := by
  rw [shown, nodes, roots, Node.block_nodesOf, List.flatMap_map]
  induction document.blocks with
  | nil => exact .slnil
  | cons block rest ih =>
    rw [List.flatMap_cons, List.flatMap_cons]
    exact (Node.shown_sublist context (.block block)).append ih

/-- The warnings of a render are those of the nodes that are shown, in preorder: one for each link
by label that stands for nothing and one for each source with nothing in it. Left out are the nodes
below an image, below a marker and below a table of contents without entries, which are not
rendered. What is assembled from the render has the same warnings. -/
theorem Document.warnings_in_preorder (document : Document) (context : Context) :
    let found := context.discover document
    let expected := (document.shown found).filterMap (Node.warning? document.target?)
    (document.shown found).Sublist document.nodes ∧
      (∀ cursor, (document.render found cursor).1.warnings = expected) ∧
      ∀ catalogue, (found.bundle catalogue document).map Output.warnings =
        (Bundle.assemble found catalogue (document.render found {}).1.write).map
          fun _ => expected := by
  intro found expected
  have rendered : ∀ cursor, (document.render found cursor).1.warnings = expected := by
    intro cursor
    have all := Block.warnings_renderAll found document.blocks cursor
    rwa [Node.warnings, context.linkTarget?_discover document] at all
  refine ⟨document.shown_sublist found, rendered, fun catalogue => ?_⟩
  rw [Context.bundle, ← rendered {}]
  obtain ⟨fragment, last⟩ := document.render found {}
  dsimp only
  cases Bundle.assemble found catalogue fragment.write <;> rfl

/-- The text of a marker is never written, so an empty formula in it goes without a warning,
although it stands neither in the text for an image nor in the title of a table of contents. -/
theorem marker_text_without_warning :
    let config : Config := {}
    let document : Document := ⟨[.heading 0 [.mathSpan ""] none]⟩
    document.nodes.map Node.entry = ["block Heading", "inline MathSpan"] ∧
      document.nodes.filterMap (Node.warning? document.target?) =
        [.emptySource "inline formula"] ∧
      ∃ context, Context.ofConfig config = .ok context ∧
        (document.render (context.discover document) {}).1.warnings = [] := by
  intro config document
  refine ⟨by decide, by decide, _, rfl, rfl⟩

end Quire
