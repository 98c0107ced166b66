import Quire.Proofs.Discovery.Alike
import Quire.Proofs.Html.Shapes
import Quire.Proofs.Html.Trail
import Quire.Proofs.Html.WellFormed

/-!
# Texts do not make tags

A document and its skeleton render to the same tags, up to the contents of attribute values. So
documents that differ in their texts alone are the same markup around different texts.
-/

namespace Quire

open Html

namespace Context

def withIndex (context : Context) (index : Index) : Context := { context with index }

variable (context : Context) (index : Index)

@[simp]
theorem document_withIndex : (context.withIndex index).document = context.document := rfl

@[simp]
theorem index_withIndex : (context.withIndex index).index = index := rfl

@[simp]
theorem localize_withIndex (key : String) :
    (context.withIndex index).localize key = context.localize key := rfl

end Context

section Inlines

theorem LinkTarget.shapes_attributes (target : LinkTarget) :
    Attribute.shapes target.skeleton.attributes = Attribute.shapes target.attributes := by
  simp [LinkTarget.attributes, skeleton]

theorem LinkTarget.shapes_of_skeleton {a b : LinkTarget} (same : a.skeleton = b.skeleton) :
    Attribute.shapes a.attributes = Attribute.shapes b.attributes := by
  rw [← a.shapes_attributes, same, b.shapes_attributes]

theorem shapes_referenceLink {a b : Option LinkTarget} (label : String) {f g : Fragment}
    (same : a.map LinkTarget.skeleton = b.map LinkTarget.skeleton) (content : f.shapes = g.shapes) :
    (referenceLink a label f).shapes = (referenceLink b label g).shapes := by
  cases a with
  | none =>
    cases b with
    | none => simp [referenceLink, content]
    | some b => contradiction
  | some a =>
    cases b with
    | none => contradiction
    | some b =>
      have attributes := LinkTarget.shapes_of_skeleton (Option.some.inj same)
      simp [referenceLink, content, attributes]

theorem shapes_inlineCollapse {f f' g g' : Fragment} (isOpen : Bool) (full : f.shapes = f'.shapes)
    (placeholder : g.shapes = g'.shapes) :
    (inlineCollapse f g isOpen).shapes = (inlineCollapse f' g' isOpen).shapes := by
  have shown : ∀ h : Fragment, Fragment.shapes { pieces := h.pieces } = h.shapes := fun _ => rfl
  have unseen : ∀ warnings, Fragment.shapes { warnings := warnings } = [] := fun _ => rfl
  cases isOpen <;> simp [inlineCollapse, shown, unseen, full, placeholder]

theorem shapes_whitespace (width height : Option String) :
    (whitespace (emptied width) (emptied height)).shapes = (whitespace width height).shapes := by
  cases width <;> cases height <;> simp [whitespace, emptied]

/-- The same labels have targets, and the same targets have titles. -/
def SameTargets (link? link'? : String → Option LinkTarget) : Prop :=
  ∀ label, (link? label).map LinkTarget.skeleton = (link'? label).map LinkTarget.skeleton

variable {link? link'? : String → Option LinkTarget}

mutual

theorem Inline.shapes_skeleton (same : SameTargets link? link'?) :
    ∀ i : Inline, (i.html link?).shapes = (i.skeleton.html link'?).shapes
  | .text _ => by simp [Inline.html, Inline.skeleton]
  | .codeSpan _ color => by
    cases color <;> simp [Inline.html, Inline.skeleton, colorPreview, emptied]
  | .emphasis content | .strong content | .strikethrough content => by
    simp [Inline.html, Inline.skeleton, Inline.shapes_skeletons same content]
  | .lineBreak => by simp [Inline.html, Inline.skeleton]
  | .link content target => by
    simp [Inline.html, Inline.skeleton, Inline.shapes_skeletons same content,
      target.shapes_attributes]
  | .referenceLink content label => by
    rw [Inline.html, Inline.skeleton, Inline.html]
    exact shapes_referenceLink label (same label) (Inline.shapes_skeletons same content)
  | .image _ alt title width height => by
    simp [Inline.html, Inline.skeleton, imageAttributes]
  | .mathSpan _ => by simp [Inline.html, Inline.skeleton]
  | .textTransform look content => by
    simp [Inline.html, Inline.skeleton, Inline.shapes_skeletons same content, TextLook.attributes,
      TextLook.skeleton]
  | .whitespace width height => by
    rw [Inline.html, Inline.skeleton, Inline.html, shapes_whitespace]
  | .inlineCollapse full placeholder isOpen => by
    rw [Inline.html, Inline.skeleton, Inline.html]
    exact shapes_inlineCollapse isOpen (Inline.shapes_skeletons same full)
      (Inline.shapes_skeletons same placeholder)
  | .pageCounter target => by simp [Inline.html, Inline.skeleton]

theorem Inline.shapes_skeletons (same : SameTargets link? link'?) : ∀ content : List Inline,
    (Inline.htmlOf link? content).shapes = (Inline.htmlOf link'? (Inline.skeletons content)).shapes
  | [] => by simp [Inline.htmlOf, Inline.skeletons]
  | i :: rest => by
    simp [Inline.htmlOf, Inline.skeletons, Inline.shapes_skeleton same i,
      Inline.shapes_skeletons same rest]

end

end Inlines

section Structure

theorem Cursor.passAll_skeletons (cursor : Cursor) (nodes : List Node) :
    cursor.passAll (nodes.map Node.skeleton) = cursor.passAll nodes := by
  have pass : ∀ (cursor : Cursor) (node : Node), cursor.pass node.skeleton = cursor.pass node := by
    intro cursor node
    cases node with
    | inline i => rfl
    | block b => cases b <;> rfl
  induction nodes generalizing cursor with
  | nil => rfl
  | cons node rest ih => rw [List.map_cons, passAll_cons, passAll_cons, pass, ih]

theorem tightContent?_skeletons (blocks : List Block) :
    tightContent? (Block.skeletons blocks) = (tightContent? blocks).map Inline.skeletons := by
  rcases blocks with _ | ⟨block, _ | ⟨other, rest⟩⟩
  · rfl
  · cases block <;> rfl
  · cases block <;> rfl

end Structure

section Contents

theorem shapes_contentsFrom (depths : List Nat) {a b : List ContentsEntry}
    (same : a.map ContentsEntry.depth = b.map ContentsEntry.depth) :
    Piece.shapes (contentsFrom depths a) = Piece.shapes (contentsFrom depths b) := by
  induction a generalizing depths b with
  | nil =>
    cases b with
    | nil => rfl
    | cons entry b => contradiction
  | cons entry a ih =>
    cases b with
    | nil => contradiction
    | cons other b =>
      obtain ⟨depth, rest⟩ := List.cons.inj same
      simp [contentsFrom, ContentsEntry.link, depth, ih _ rest]

/-- The depths of the entries depend on the depths of the headings, and on who chose identifiers. -/
theorem depths_contentsEntries (context : Context) {other : Index}
    (alike : context.index.Alike other) (maxDepth : UInt8) :
    (contentsEntries context maxDepth).map ContentsEntry.depth =
      (contentsEntries (context.withIndex other) maxDepth).map ContentsEntry.depth := by
  have outlines : ∀ index : Index,
      (contentsEntries (context.withIndex index) maxDepth).map ContentsEntry.depth =
        (index.identifiers.entries.map (·.2.outline)).filterMap fun (depth, isExplicit) =>
          if 1 ≤ depth && depth ≤ maxDepth && context.showsIdentifier isExplicit then
            some depth.toNat
          else none := by
    intro index
    rw [contentsEntries, List.map_filterMap, List.filterMap_map]
    refine List.filterMap_congr fun entry _ => ?_
    obtain ⟨id, target⟩ := entry
    exact apply_ite (Option.map ContentsEntry.depth) _ _ _
  rw [outlines other, ← alike.identifiers]
  exact outlines context.index

end Contents

section Blocks

variable (context : Context)

theorem shapes_containerAttributes (style : ContainerStyle) :
    Attribute.shapes (containerAttributes style.skeleton) =
      Attribute.shapes (containerAttributes style) := by
  simp [containerAttributes, ContainerStyle.skeleton]

theorem shapes_caption (other : Index) (tag kind : String) (label : Option String)
    (position : CaptionPosition) (content : Option String) :
    (caption context tag kind label position content).shapes =
      (caption (context.withIndex other) tag kind label position
        (emptied content)).shapes := by
  cases content with
  | none => rfl
  | some content => simp [caption, emptied, Context.localize_withIndex]

variable {other : Index}

theorem shapes_figure (label caption : Option String) {f g : Fragment}
    (child : f.shapes = g.shapes) :
    (figure context label caption f).shapes =
      (figure (context.withIndex other) label (emptied caption) g).shapes := by
  have caption := shapes_caption context other "figcaption" "figure" label
    context.document.layout.captionPositions.figures caption
  simp only [figure, Context.document_withIndex, Fragment.shapes_blockElement]
  split <;> simp only [Fragment.shapes_append, caption, child]

theorem cursor_skeleton (block : Block) (cursor : Cursor) :
    (block.skeleton.render (context.withIndex other) cursor).2 =
      (block.render context cursor).2 := by
  have nodes : block.skeleton.nodes = block.nodes.map Node.skeleton :=
    Node.nodes_skeleton (.block block)
  rw [Block.cursor_render, Block.cursor_render, nodes, Cursor.passAll_skeletons]

theorem cursor_skeletons (blocks : List Block) (cursor : Cursor) :
    (Block.renderAll (context.withIndex other) cursor (Block.skeletons blocks)).2 =
      (Block.renderAll context cursor blocks).2 := by
  have nodes : Block.nodesOf (Block.skeletons blocks) = (Block.nodesOf blocks).map Node.skeleton :=
    Document.nodes_skeleton ⟨blocks⟩
  rw [Block.cursor_renderAll, Block.cursor_renderAll, nodes, Cursor.passAll_skeletons]

variable (alike : context.index.Alike other)

include alike

theorem shapes_inlines (content : List Inline) :
    (context.inlines content).shapes =
      ((context.withIndex other).inlines (Inline.skeletons content)).shapes := by
  refine Inline.shapes_skeletons (fun label => ?_) content
  have found := congrArg (Option.map LinkDefinition.target) (alike.link? label)
  rw [Option.map_map, Option.map_map] at found
  rw [Context.linkTarget?, Context.linkTarget?, Option.map_map, Option.map_map]
  exact found

theorem locationLabel_alike (kind : LocationKind) (i : Nat) :
    (context.withIndex other).locationLabel kind i = context.locationLabel kind i := by
  rw [Context.locationLabel, Context.locationLabel, Index.locationAt?, Index.locationAt?,
    alike.locations]
  rfl

theorem shapes_attribution (source : Option (List Inline)) :
    (attribution (source.map context.inlines)).shapes =
      (attribution ((source.map Inline.skeletons).map
        ((context.withIndex other).inlines))).shapes := by
  cases source with
  | none => rfl
  | some content => simp [attribution, shapes_inlines context alike content]

theorem shapes_tableCells (t : Table) (tag : String) (column : Nat) (cells : List (List Inline)) :
    (tableCells context t tag column cells).shapes =
      (tableCells (context.withIndex other) t.skeleton tag column
        (cells.map Inline.skeletons)).shapes := by
  induction cells generalizing column with
  | nil => rfl
  | cons cell rest ih =>
    simp [tableCells, ih, shapes_inlines context alike cell, Table.alignment, Table.skeleton]

theorem shapes_table (label : Option String) (t : Table) :
    (Html.table context label t).shapes =
      (Html.table (context.withIndex other) label t.skeleton).shapes := by
  have caption := shapes_caption context other "caption" "table" label
    context.document.layout.captionPositions.tables t.caption
  have row : ∀ tag cells, (tableRow context t tag cells).shapes =
      (tableRow (context.withIndex other) t.skeleton tag
        (cells.map Inline.skeletons)).shapes := by
    intro tag cells
    simp [tableRow, shapes_tableCells context alike t tag 0 cells]
  have rows : (t.rows.map (tableRow context t "td")).flatMap Fragment.shapes =
      (t.skeleton.rows.map
        (tableRow (context.withIndex other) t.skeleton "td")).flatMap Fragment.shapes := by
    rw [Table.skeleton, List.map_map, List.flatMap_map, List.flatMap_map]
    exact List.flatMap_congr fun cells _ => row "td" cells
  simp only [Html.table, Fragment.shapes_blockElement, Fragment.shapes_append,
    Fragment.shapes_concat, caption, rows, row]
  rfl

theorem shapes_callout (kind : CalloutKind) (title : Option (List Inline)) (padding : Option String)
    {f g : Fragment} (children : f.shapes = g.shapes) :
    (callout kind (title.map context.inlines) padding f).shapes =
      (callout kind ((title.map Inline.skeletons).map
        ((context.withIndex other).inlines)) (emptied padding) g).shapes := by
  cases title with
  | none => simp [callout, calloutHeader, children]
  | some title => simp [callout, calloutHeader, children, shapes_inlines context alike title]

theorem shapes_collapse (title : List Inline) (isOpen : Bool) {f g : Fragment}
    (children : f.shapes = g.shapes) :
    (collapse (context.inlines title) isOpen f).shapes =
      (collapse ((context.withIndex other).inlines (Inline.skeletons title)) isOpen
        g).shapes := by
  simp [collapse, children, shapes_inlines context alike title]

theorem shapes_contentsTitle (title : Option (List Inline)) :
    (contentsTitle context title).shapes =
      (contentsTitle (context.withIndex other) (title.map Inline.skeletons)).shapes := by
  cases title with
  | none => rfl
  | some title => exact shapes_inlines context alike title

theorem shapes_tableOfContents (title : Option (List Inline)) (maxDepth : UInt8) :
    (tableOfContents context title maxDepth).shapes =
      (tableOfContents (context.withIndex other) (title.map Inline.skeletons)
        maxDepth).shapes := by
  have depths := depths_contentsEntries context alike maxDepth
  have title := shapes_contentsTitle context alike title
  unfold tableOfContents
  cases here : contentsEntries context maxDepth with
  | nil =>
    rw [here, List.map_nil, eq_comm, List.map_eq_nil_iff] at depths
    rw [depths]
  | cons entry rest =>
    cases there : contentsEntries (context.withIndex other) maxDepth with
    | nil =>
      rw [here, there] at depths
      contradiction
    | cons entry' rest' =>
      rw [here, there] at depths
      have lists : Fragment.shapes { pieces := contents (entry :: rest) } =
          Fragment.shapes { pieces := contents (entry' :: rest') } := shapes_contentsFrom [] depths
      simp only [Fragment.shapes_append, Fragment.shapes_lineElement, Fragment.shapes_blockElement,
        title, lists]

theorem shapes_leafBlock (block : Block) :
    (leafBlock context block).shapes =
      (leafBlock (context.withIndex other) block.skeleton).shapes := by
  cases block with
  | paragraph content => simp [leafBlock, Block.skeleton, shapes_inlines context alike content]
  | codeBlock language content lineNumbers =>
    simp [leafBlock, Block.skeleton, codeBlock]
  | tableOfContents title maxDepth => exact shapes_tableOfContents context alike title maxDepth
  | html markup => rfl
  | _ => simp [leafBlock, Block.skeleton]

theorem isSome_headingId? (cursor : Cursor) (customId : Option String) :
    (context.headingId? cursor customId).isSome =
      ((context.withIndex other).headingId? cursor (emptied customId)).isSome := by
  have taken := alike.isSome_identifierAt? cursor.identifiers
  have shown : (context.withIndex other).showsIdentifier = context.showsIdentifier := rfl
  rw [Context.headingId?, Context.headingId?, isSome_emptied, shown]
  split
  · rw [Option.isSome_map, Option.isSome_map, taken]
    rfl
  · rfl

theorem shapes_renderHeading (cursor : Cursor) (depth : UInt8) (content : List Inline)
    (customId : Option String) :
    (renderHeading context cursor depth content customId).1.shapes =
      (renderHeading (context.withIndex other) cursor depth (Inline.skeletons content)
        (emptied customId)).1.shapes := by
  have id := isSome_headingId? context alike cursor customId
  by_cases invisible : depth = 0
  · subst invisible
    simp [renderHeading_marker, marker, id]
  · have label := locationLabel_alike context alike .heading cursor.headings
    have breaks : (context.withIndex other).breaksPage depth = context.breaksPage depth := rfl
    have inlines := shapes_inlines context alike content
    rw [renderHeading_visible _ _ invisible, renderHeading_visible _ _ invisible, label, breaks]
    simp only [Fragment.shapes_append, heading, Fragment.shapes_lineElement,
      Attribute.shapes_append, Attribute.shapes_optional, id, inlines]

theorem shapes_listItem (content : List Block) (checked : Option Bool) {loose loose' : Fragment}
    (inner : loose.shapes = loose'.shapes) :
    (listItem checked (match tightContent? content with
      | some tight => context.inlines tight
      | none => loose)).shapes =
    (listItem checked (match tightContent? (Block.skeletons content) with
      | some tight => (context.withIndex other).inlines tight
      | none => loose')).shapes := by
  have item : ∀ {f g : Fragment}, f.shapes = g.shapes →
      (listItem checked f).shapes = (listItem checked g).shapes := by
    intro f g same
    cases checked with
    | none => simp [listItem, same]
    | some checked => simp [listItem_task, same]
  refine item ?_
  rw [tightContent?_skeletons]
  cases tightContent? content with
  | none => exact inner
  | some tight => exact shapes_inlines context alike tight

end Blocks

mutual

theorem Block.shapes_skeleton (context : Context) {other : Index}
    (alike : context.index.Alike other) : ∀ (block : Block) (cursor : Cursor),
    (block.render context cursor).1.shapes =
      (block.skeleton.render (context.withIndex other) cursor).1.shapes
  | .heading depth content customId, cursor => by
    rw [Block.render, Block.skeleton, Block.render]
    exact shapes_renderHeading context alike cursor depth content customId
  | .blockQuote kind source content, cursor => by
    have inner := Block.shapes_skeletons context alike content cursor
    have source := shapes_attribution context alike source
    rw [Block.render, Block.skeleton, Block.render]
    simp only [Fragment.shapes_blockElement, Fragment.shapes_append, inner, source]
    rfl
  | .orderedList start items, cursor => by
    have inner := ListItem.shapes_skeletons context alike items cursor
    rw [Block.render, Block.skeleton, Block.render]
    simp only [orderedList, Fragment.shapes_blockElement, inner]
  | .unorderedList items, cursor => by
    have inner := ListItem.shapes_skeletons context alike items cursor
    rw [Block.render, Block.skeleton, Block.render]
    simp only [Fragment.shapes_blockElement, inner]
  | .table t, cursor => by
    rw [Block.render, Block.skeleton, Block.render, locationLabel_alike context alike]
    exact shapes_table context alike _ t
  | .figure child caption, cursor => by
    have inner := Block.shapes_skeleton context alike child cursor.passFigure
    rw [Block.render, Block.skeleton, Block.render, locationLabel_alike context alike]
    exact shapes_figure context _ caption inner
  | .container children style, cursor => by
    have inner := Block.shapes_skeletons context alike children cursor
    rw [Block.render, Block.skeleton, Block.render]
    simp only [Fragment.shapes_blockElement, inner, shapes_containerAttributes]
  | .callout kind title padding children, cursor => by
    have inner := Block.shapes_skeletons context alike children cursor
    rw [Block.render, Block.skeleton, Block.render]
    exact shapes_callout context alike kind title padding inner
  | .collapse title isOpen children, cursor => by
    have inner := Block.shapes_skeletons context alike children cursor
    rw [Block.render, Block.skeleton, Block.render]
    exact shapes_collapse context alike title isOpen inner
  | .fullColumnSpan children, cursor | .pageMargin _ children, cursor => by
    have inner := Block.shapes_skeletons context alike children cursor
    rw [Block.render, Block.skeleton, Block.render]
    simp only [classedDiv, Fragment.shapes_blockElement, inner, Attribute.shapes_cons_value]
  | .numbered _ children, cursor | .expanded children, cursor => by
    rw [Block.render, Block.skeleton, Block.render]
    exact Block.shapes_skeletons context alike children cursor
  | .paragraph content, cursor => by
    simp only [Block.render, Block.skeleton]
    exact shapes_leafBlock context alike (.paragraph content)
  | .codeBlock language content lineNumbers, cursor => by
    simp only [Block.render, Block.skeleton]
    exact shapes_leafBlock context alike (.codeBlock language content lineNumbers)
  | .tableOfContents title maxDepth, cursor => by
    simp only [Block.render, Block.skeleton]
    exact shapes_leafBlock context alike (.tableOfContents title maxDepth)
  | .math content, cursor => by
    simp only [Block.render, Block.skeleton]
    exact shapes_leafBlock context alike (.math content)
  | .mermaidDiagram code, cursor => by
    simp only [Block.render, Block.skeleton]
    exact shapes_leafBlock context alike (.mermaidDiagram code)
  | .tikzDiagram code, cursor => by
    simp only [Block.render, Block.skeleton]
    exact shapes_leafBlock context alike (.tikzDiagram code)
  | .html _, _ | .horizontalRule, _ | .pageBreak, _ | .linkDefinition _, _ | .slides _, _ => by
    simp only [Block.render, Block.skeleton]
    rfl

theorem Block.shapes_skeletons (context : Context) {other : Index}
    (alike : context.index.Alike other) : ∀ (blocks : List Block) (cursor : Cursor),
    (Block.renderAll context cursor blocks).1.shapes =
      (Block.renderAll (context.withIndex other) cursor (Block.skeletons blocks)).1.shapes
  | [], _ => by simp only [Block.renderAll, Block.skeletons]
  | block :: rest, cursor => by
    have later := Block.shapes_skeletons context alike rest (block.render context cursor).2
    rw [Block.renderAll, Block.skeletons, Block.renderAll]
    simp only [Fragment.shapes_append, cursor_skeleton context block cursor,
      Block.shapes_skeleton context alike block cursor, later]

theorem ListItem.shapes_skeletons (context : Context) {other : Index}
    (alike : context.index.Alike other) : ∀ (items : List ListItem) (cursor : Cursor),
    (ListItem.renderAll context cursor items).1.shapes =
      (ListItem.renderAll (context.withIndex other) cursor (ListItem.skeletons items)).1.shapes
  | [], _ => by simp only [ListItem.renderAll, ListItem.skeletons]
  | .mk content checked :: rest, cursor => by
    have inner := Block.shapes_skeletons context alike content cursor
    have later :=
      ListItem.shapes_skeletons context alike rest (Block.renderAll context cursor content).2
    rw [ListItem.renderAll, ListItem.skeletons, ListItem.renderAll]
    simp only [Fragment.shapes_append, cursor_skeletons context content cursor, later]
    exact congrArg (· ++ _) (shapes_listItem context alike content checked inner)

end


theorem Document.shapes_skeleton (document : Document) (context : Context) :
    (document.render (context.discover document) {}).1.shapes =
      (document.skeleton.render (context.discover document.skeleton) {}).1.shapes :=
  Block.shapes_skeletons (context.discover document) document.index_alike document.blocks {}

/-- Documents without markup of their authors that differ only in their texts are the same tags
with the same attributes. -/
theorem same_tags_of_same_skeleton (context : Context) {a b : Document}
    (noMarkup : a.HasNoMarkup) (noMarkup' : b.HasNoMarkup) (same : a.skeleton = b.skeleton) :
    ∃ m n : Markup, m.Splits (a.render (context.discover a) {}).1.write ∧
      n.Splits (b.render (context.discover b) {}).1.write ∧
      m.tags.map Tag.shape = n.tags.map Tag.shape := by
  have shapes : (a.render (context.discover a) {}).1.shapes =
      (b.render (context.discover b) {}).1.shapes := by
    rw [a.shapes_skeleton, same, ← b.shapes_skeleton]
  have wellFormed := Block.allWellFormed (context.discover a) a.blocks {}
    (Document.hasNoMarkup_iff.mp noMarkup)
  have wellFormed' := Block.allWellFormed (context.discover b) b.blocks {}
    (Document.hasNoMarkup_iff.mp noMarkup')
  refine ⟨_, _, wellFormed.splits.1, wellFormed'.splits.1, ?_⟩
  rw [Piece.tags_markup, Piece.tags_markup]
  exact shapes

/-- Texts that look like tags, in a heading and in a link. -/
theorem same_tags_of_same_skeleton_script :
    let a : Document :=
      ⟨[.heading 1 [.text "Notes"] none, .paragraph [.link [.text "x"] ⟨"y", none⟩]]⟩
    let b : Document :=
      ⟨[.heading 1 [.text "</h1><script>"] none, .paragraph [.link [.text "'"] ⟨"\"><b>", none⟩]]⟩
    let context : Context := { document := {}, options := {}, labelling := fun _ _ => none }
    (a.HasNoMarkup ∧ b.HasNoMarkup ∧ a.skeleton = b.skeleton) ∧
      ∃ m n : Markup, m.Splits (a.render (context.discover a) {}).1.write ∧
        n.Splits (b.render (context.discover b) {}).1.write ∧
        m.tags.map Tag.shape = n.tags.map Tag.shape := by
  intro a b context
  have noMarkup : a.HasNoMarkup := by decide
  have noMarkup' : b.HasNoMarkup := by decide
  have same : a.skeleton = b.skeleton := rfl
  exact ⟨⟨noMarkup, noMarkup', same⟩, same_tags_of_same_skeleton context noMarkup noMarkup' same⟩

end Quire
