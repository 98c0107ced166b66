import Quire.Document.Tree

/-!
# Nodes

Blocks and inlines under one view. `children` lists what a node holds in the order in which it is
shown, `nodes` lists a node and all below it in preorder, and `walk` passes a state through the
nodes in that order.
-/

namespace Quire

inductive Node where
  | block (block : Block)
  | inline (inline : Inline)
  deriving Repr

namespace Node

def blockKind : Block → String
  | .paragraph .. => "Paragraph"
  | .heading .. => "Heading"
  | .blockQuote .. => "BlockQuote"
  | .codeBlock .. => "CodeBlock"
  | .orderedList .. => "OrderedList"
  | .unorderedList .. => "UnorderedList"
  | .horizontalRule => "HorizontalRule"
  | .html .. => "Html"
  | .table .. => "Table"
  | .figure .. => "Figure"
  | .math .. => "Math"
  | .mermaidDiagram .. => "MermaidDiagram"
  | .tikzDiagram .. => "TikzDiagram"
  | .container .. => "Container"
  | .callout .. => "Callout"
  | .collapse .. => "Collapse"
  | .fullColumnSpan .. => "FullColumnSpan"
  | .numbered .. => "Numbered"
  | .expanded .. => "Expanded"
  | .pageBreak => "PageBreak"
  | .tableOfContents .. => "TableOfContents"
  | .linkDefinition .. => "LinkDefinition"
  | .pageMargin .. => "PageMarginContent"
  | .slides .. => "SlidesConfiguration"

def inlineKind : Inline → String
  | .text .. => "Text"
  | .codeSpan .. => "CodeSpan"
  | .emphasis .. => "Emphasis"
  | .strong .. => "Strong"
  | .strikethrough .. => "Strikethrough"
  | .lineBreak => "LineBreak"
  | .link .. => "Link"
  | .referenceLink .. => "ReferenceLink"
  | .image .. => "Image"
  | .mathSpan .. => "MathSpan"
  | .textTransform .. => "TextTransform"
  | .whitespace .. => "Whitespace"
  | .inlineCollapse .. => "InlineCollapse"
  | .pageCounter .. => "PageCounter"

def inlineChildren : Inline → List Inline
  | .emphasis content => content
  | .strong content => content
  | .strikethrough content => content
  | .link content _ => content
  | .referenceLink content _ => content
  | .image _ alt _ _ _ => alt
  | .textTransform _ content => content
  | .inlineCollapse full placeholder _ => full ++ placeholder
  | _ => []

def blockChildren : Block → List Node
  | .paragraph content => content.map inline
  | .heading _ content _ => content.map inline
  | .blockQuote _ attribution content =>
    content.map block ++ (attribution.getD []).map inline
  | .orderedList _ items => (items.flatMap ListItem.content).map block
  | .unorderedList items => (items.flatMap ListItem.content).map block
  | .table t => t.cells.flatten.map inline
  | .figure child _ => [block child]
  | .container children _ => children.map block
  | .callout _ title _ children => (title.getD []).map inline ++ children.map block
  | .collapse title _ children => title.map inline ++ children.map block
  | .fullColumnSpan children => children.map block
  | .numbered _ children => children.map block
  | .expanded children => children.map block
  | .tableOfContents title _ => (title.getD []).map inline
  | .pageMargin _ children => children.map block
  | _ => []

def children : Node → List Node
  | block b => blockChildren b
  | inline i => (inlineChildren i).map inline

end Node

mutual

/-- An inline and all below it in preorder. -/
def Inline.nodes : Inline → List Node
  | .emphasis content => .inline (.emphasis content) :: Inline.nodesOf content
  | .strong content => .inline (.strong content) :: Inline.nodesOf content
  | .strikethrough content => .inline (.strikethrough content) :: Inline.nodesOf content
  | .link content target => .inline (.link content target) :: Inline.nodesOf content
  | .referenceLink content label =>
    .inline (.referenceLink content label) :: Inline.nodesOf content
  | .image url alt title width height =>
    .inline (.image url alt title width height) :: Inline.nodesOf alt
  | .textTransform look content => .inline (.textTransform look content) :: Inline.nodesOf content
  | .inlineCollapse full placeholder isOpen =>
    .inline (.inlineCollapse full placeholder isOpen) ::
      (Inline.nodesOf full ++ Inline.nodesOf placeholder)
  | leaf => [.inline leaf]

def Inline.nodesOf : List Inline → List Node
  | [] => []
  | inline :: rest => inline.nodes ++ Inline.nodesOf rest

end

mutual

def Block.nodes : Block → List Node
  | .paragraph content => .block (.paragraph content) :: Inline.nodesOf content
  | .heading depth content customId =>
    .block (.heading depth content customId) :: Inline.nodesOf content
  | .blockQuote kind attribution content =>
    .block (.blockQuote kind attribution content) ::
      (Block.nodesOf content ++ Inline.nodesOf (attribution.getD []))
  | .orderedList start items => .block (.orderedList start items) :: ListItem.nodesOf items
  | .unorderedList items => .block (.unorderedList items) :: ListItem.nodesOf items
  | .table t => .block (.table t) :: t.cells.flatMap Inline.nodesOf
  | .figure child caption => .block (.figure child caption) :: child.nodes
  | .container children style => .block (.container children style) :: Block.nodesOf children
  | .callout kind title padding children =>
    .block (.callout kind title padding children) ::
      (Inline.nodesOf (title.getD []) ++ Block.nodesOf children)
  | .collapse title isOpen children =>
    .block (.collapse title isOpen children) ::
      (Inline.nodesOf title ++ Block.nodesOf children)
  | .fullColumnSpan children => .block (.fullColumnSpan children) :: Block.nodesOf children
  | .numbered key children => .block (.numbered key children) :: Block.nodesOf children
  | .expanded children => .block (.expanded children) :: Block.nodesOf children
  | .tableOfContents title maxDepth =>
    .block (.tableOfContents title maxDepth) :: Inline.nodesOf (title.getD [])
  | .pageMargin position children =>
    .block (.pageMargin position children) :: Block.nodesOf children
  | leaf => [.block leaf]

def Block.nodesOf : List Block → List Node
  | [] => []
  | block :: rest => block.nodes ++ Block.nodesOf rest

def ListItem.nodesOf : List ListItem → List Node
  | [] => []
  | .mk content _ :: rest => Block.nodesOf content ++ ListItem.nodesOf rest

end

def Node.nodes : Node → List Node
  | .block b => b.nodes
  | .inline i => i.nodes

namespace Node

theorem inline_nodesOf (content : List Inline) :
    Inline.nodesOf content = content.flatMap Inline.nodes := by
  induction content with
  | nil => rfl
  | cons i rest ih => simp [Inline.nodesOf, ih]

theorem block_nodesOf (content : List Block) :
    Block.nodesOf content = content.flatMap Block.nodes := by
  induction content with
  | nil => rfl
  | cons b rest ih => simp [Block.nodesOf, ih]

theorem item_nodesOf (items : List ListItem) :
    ListItem.nodesOf items = (items.flatMap ListItem.content).flatMap Block.nodes := by
  induction items with
  | nil => rfl
  | cons item rest ih =>
    cases item
    simp [ListItem.nodesOf, ListItem.content, ih, block_nodesOf]

theorem cells_nodesOf (cells : List (List Inline)) :
    cells.flatMap Inline.nodesOf = cells.flatten.flatMap Inline.nodes := by
  induction cells with
  | nil => rfl
  | cons cell rest ih => simp [ih, inline_nodesOf]

/-- A node comes first, and what its children list follows. -/
theorem nodes_eq_cons (n : Node) : n.nodes = n :: n.children.flatMap Node.nodes := by
  cases n with
  | block b =>
    cases b <;>
      simp [Node.nodes, Block.nodes, children, blockChildren, List.flatMap_map, inline_nodesOf,
        block_nodesOf, item_nodesOf, cells_nodesOf, List.flatMap_assoc, -List.map_flatten]
  | inline i =>
    cases i <;>
      simp [Node.nodes, Inline.nodes, children, inlineChildren, List.flatMap_map, inline_nodesOf]

/-- Pass a state through nodes and all below them, each node before its children. The list holds
what is still to be visited. -/
def walk {σ : Type} (visit : σ → Node → σ) (state : σ) : List Node → σ
  | [] => state
  | node :: rest => walk visit (visit state node) (node.children ++ rest)
termination_by pending => (pending.flatMap Node.nodes).length
decreasing_by simp [nodes_eq_cons node]

end Node

def Document.roots (document : Document) : List Node := document.blocks.map .block

/-- All nodes of a document in preorder. -/
def Document.nodes (document : Document) : List Node := Block.nodesOf document.blocks

end Quire
