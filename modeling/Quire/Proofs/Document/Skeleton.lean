import Quire.Proofs.Discovery.Presence

/-!
# Skeletons

A document without what its author wrote: every text is emptied, except for the labels that links
and their definitions share. Which texts are there stays, and so do all choices and numbers.
-/

namespace Quire

def emptied (text : Option String) : Option String := text.map fun _ => ""

@[simp]
theorem isSome_emptied (text : Option String) : (emptied text).isSome = text.isSome :=
  Option.isSome_map

def TextLook.skeleton (look : TextLook) : TextLook := { look with color := emptied look.color }

def LinkTarget.skeleton (target : LinkTarget) : LinkTarget := ⟨"", emptied target.title⟩

def LinkDefinition.skeleton (definition : LinkDefinition) : LinkDefinition :=
  { definition with target := definition.target.skeleton }

def ContainerStyle.skeleton (style : ContainerStyle) : ContainerStyle :=
  { fullWidth := style.fullWidth
    width := emptied style.width
    height := emptied style.height
    foregroundColor := emptied style.foregroundColor
    backgroundColor := emptied style.backgroundColor
    margin := emptied style.margin
    padding := emptied style.padding
    borderColor := emptied style.borderColor
    borderWidth := emptied style.borderWidth
    cornerRadius := emptied style.cornerRadius
    textAlignment := emptied style.textAlignment }

mutual

def Inline.skeleton : Inline → Inline
  | .text _ => .text ""
  | .codeSpan _ color => .codeSpan "" (emptied color)
  | .emphasis content => .emphasis (Inline.skeletons content)
  | .strong content => .strong (Inline.skeletons content)
  | .strikethrough content => .strikethrough (Inline.skeletons content)
  | .lineBreak => .lineBreak
  | .link content target => .link (Inline.skeletons content) target.skeleton
  | .referenceLink content label => .referenceLink (Inline.skeletons content) label
  | .image _ alt title width height =>
    .image "" (Inline.skeletons alt) (emptied title) (emptied width) (emptied height)
  | .mathSpan _ => .mathSpan ""
  | .textTransform look content => .textTransform look.skeleton (Inline.skeletons content)
  | .whitespace width height => .whitespace (emptied width) (emptied height)
  | .inlineCollapse full placeholder isOpen =>
    .inlineCollapse (Inline.skeletons full) (Inline.skeletons placeholder) isOpen
  | .pageCounter target => .pageCounter target

def Inline.skeletons : List Inline → List Inline
  | [] => []
  | i :: rest => i.skeleton :: Inline.skeletons rest

end

def Table.skeleton (t : Table) : Table :=
  { alignments := t.alignments
    header := t.header.map Inline.skeletons
    rows := t.rows.map (·.map Inline.skeletons)
    caption := emptied t.caption }

mutual

def Block.skeleton : Block → Block
  | .paragraph content => .paragraph (Inline.skeletons content)
  | .heading depth content customId =>
    .heading depth (Inline.skeletons content) (emptied customId)
  | .blockQuote kind source content =>
    .blockQuote kind (source.map Inline.skeletons) (Block.skeletons content)
  | .codeBlock language _ lineNumbers => .codeBlock (emptied language) "" lineNumbers
  | .orderedList start items => .orderedList start (ListItem.skeletons items)
  | .unorderedList items => .unorderedList (ListItem.skeletons items)
  | .horizontalRule => .horizontalRule
  | .html _ => .html ""
  | .table t => .table t.skeleton
  | .figure child caption => .figure child.skeleton (emptied caption)
  | .math _ => .math ""
  | .mermaidDiagram _ => .mermaidDiagram ""
  | .tikzDiagram _ => .tikzDiagram ""
  | .container children style => .container (Block.skeletons children) style.skeleton
  | .callout kind title padding children =>
    .callout kind (title.map Inline.skeletons) (emptied padding) (Block.skeletons children)
  | .collapse title isOpen children =>
    .collapse (Inline.skeletons title) isOpen (Block.skeletons children)
  | .fullColumnSpan children => .fullColumnSpan (Block.skeletons children)
  | .numbered _ children => .numbered "" (Block.skeletons children)
  | .expanded children => .expanded (Block.skeletons children)
  | .pageBreak => .pageBreak
  | .tableOfContents title maxDepth => .tableOfContents (title.map Inline.skeletons) maxDepth
  | .linkDefinition definition => .linkDefinition definition.skeleton
  | .pageMargin position children => .pageMargin position (Block.skeletons children)
  | .slides settings => .slides settings

def Block.skeletons : List Block → List Block
  | [] => []
  | b :: rest => b.skeleton :: Block.skeletons rest

def ListItem.skeletons : List ListItem → List ListItem
  | [] => []
  | .mk content checked :: rest =>
    .mk (Block.skeletons content) checked :: ListItem.skeletons rest

end

def Document.skeleton (document : Document) : Document := ⟨Block.skeletons document.blocks⟩

def Node.skeleton : Node → Node
  | .block b => .block b.skeleton
  | .inline i => .inline i.skeleton

theorem Inline.skeletons_eq_map (content : List Inline) :
    Inline.skeletons content = content.map Inline.skeleton := by
  induction content with
  | nil => rfl
  | cons i rest ih => rw [Inline.skeletons, ih, List.map_cons]

theorem Block.skeletons_eq_map (blocks : List Block) :
    Block.skeletons blocks = blocks.map Block.skeleton := by
  induction blocks with
  | nil => rfl
  | cons b rest ih => rw [Block.skeletons, ih, List.map_cons]

theorem ListItem.content_skeletons (items : List ListItem) :
    (ListItem.skeletons items).flatMap content = (items.flatMap content).map Block.skeleton := by
  induction items with
  | nil => rfl
  | cons item rest ih =>
    obtain ⟨blocks, checked⟩ := item
    rw [ListItem.skeletons, List.flatMap_cons, ih, List.flatMap_cons, List.map_append]
    rw [content, content, Block.skeletons_eq_map]

theorem Table.cells_skeleton (t : Table) : t.skeleton.cells = t.cells.map Inline.skeletons := by
  simp [Table.cells, Table.skeleton, List.map_flatten]

namespace Node

theorem children_skeleton (node : Node) : node.skeleton.children = node.children.map skeleton := by
  have inlines : ∀ content : List Inline,
      (Inline.skeletons content).map inline = (content.map inline).map skeleton := by
    intro content
    rw [Inline.skeletons_eq_map, List.map_map, List.map_map]
    rfl
  have blocks : ∀ content : List Block,
      (Block.skeletons content).map block = (content.map block).map skeleton := by
    intro content
    rw [Block.skeletons_eq_map, List.map_map, List.map_map]
    rfl
  cases node with
  | inline i =>
    cases i with
    | inlineCollapse full placeholder isOpen =>
      simp only [skeleton, Inline.skeleton, children, inlineChildren, List.map_append, inlines]
    | emphasis | strong | strikethrough | link | referenceLink | image | textTransform =>
      exact inlines _
    | _ => rfl
  | block b =>
    cases b with
    | blockQuote kind source content =>
      cases source <;> simp [skeleton, Block.skeleton, children, blockChildren, inlines, blocks]
    | callout kind title padding content =>
      cases title <;> simp [skeleton, Block.skeleton, children, blockChildren, inlines, blocks]
    | tableOfContents title maxDepth =>
      cases title <;> simp [skeleton, Block.skeleton, children, blockChildren, inlines]
    | collapse title isOpen content =>
      simp only [skeleton, Block.skeleton, children, blockChildren, List.map_append, inlines,
        blocks]
    | orderedList start items =>
      simp only [skeleton, Block.skeleton, children, blockChildren, ListItem.content_skeletons,
        ← Block.skeletons_eq_map, blocks]
    | unorderedList items =>
      simp only [skeleton, Block.skeleton, children, blockChildren, ListItem.content_skeletons,
        ← Block.skeletons_eq_map, blocks]
    | table t =>
      have cells : t.skeleton.cells.flatten = Inline.skeletons t.cells.flatten := by
        rw [Table.cells_skeleton, Inline.skeletons_eq_map, List.map_flatten]
        exact congrArg List.flatten (List.map_congr_left fun cell _ => Inline.skeletons_eq_map cell)
      simp only [skeleton, Block.skeleton, children, blockChildren, cells, inlines]
    | paragraph | heading => exact inlines _
    | container | fullColumnSpan | numbered | expanded | pageMargin => exact blocks _
    | _ => rfl

theorem nodes_skeleton (node : Node) : node.skeleton.nodes = node.nodes.map skeleton := by
  induction node using children_induction with
  | step node ih =>
    rw [nodes_eq_cons, nodes_eq_cons node, children_skeleton, List.map_cons, List.flatMap_map,
      List.map_flatMap, List.flatMap_congr ih]

end Node

theorem Document.nodes_skeleton (document : Document) :
    document.skeleton.nodes = document.nodes.map Node.skeleton := by
  rw [nodes_eq_flatMap, nodes_eq_flatMap, roots, roots, skeleton, Block.skeletons_eq_map,
    List.map_flatMap, List.map_map, List.flatMap_map, List.flatMap_map]
  refine List.flatMap_congr fun b _ => ?_
  exact Node.nodes_skeleton (.block b)

end Quire
