import Quire.Document.Style

/-!
# Document trees

Inline nodes stand in running text, block nodes make up the page. A document is a list of blocks.
-/

namespace Quire

inductive Inline where
  | text (text : String)
  /-- Code, with a colour when it spells one. -/
  | codeSpan (text : String) (color : Option String)
  | emphasis (content : List Inline)
  | strong (content : List Inline)
  | strikethrough (content : List Inline)
  | lineBreak
  | link (content : List Inline) (target : LinkTarget)
  /-- A link whose target is defined elsewhere under a label. -/
  | referenceLink (content : List Inline) (label : String)
  | image (url : String) (alt : List Inline) (title width height : Option String)
  | mathSpan (expression : String)
  | textTransform (look : TextLook) (content : List Inline)
  | whitespace (width height : Option String)
  /-- A text that gives way to its placeholder until it is opened. -/
  | inlineCollapse (text placeholder : List Inline) (isOpen : Bool)
  | pageCounter (target : PageCounterTarget)
  deriving Repr, Inhabited

/-- A table. Each row is a list of cells, and each cell holds inline nodes. -/
structure Table where
  alignments : List Alignment := []
  header : List (List Inline)
  rows : List (List (List Inline))
  caption : Option String := none
  deriving Repr

/-- Columns without an alignment of their own take the default. -/
def Table.alignment (table : Table) (column : Nat) : Alignment :=
  table.alignments[column]?.getD .default

/-- All cells, those of the header first and then row by row. -/
def Table.cells (table : Table) : List (List Inline) := table.header ++ table.rows.flatten

mutual

inductive Block where
  | paragraph (content : List Inline)
  /-- Depth 0 is an invisible marker that only carries an identifier. -/
  | heading (depth : UInt8) (content : List Inline) (customId : Option String)
  | blockQuote (kind : Option QuoteKind) (attribution : Option (List Inline))
      (content : List Block)
  | codeBlock (language : Option String) (text : String) (lineNumbers : Bool)
  | orderedList (start : UInt32) (items : List ListItem)
  | unorderedList (items : List ListItem)
  | horizontalRule
  /-- Markup that is written as it stands. -/
  | html (content : String)
  | table (table : Table)
  | figure (child : Block) (caption : Option String)
  | math (expression : String)
  | mermaidDiagram (code : String)
  | tikzDiagram (code : String)
  | container (children : List Block) (style : ContainerStyle)
  | callout (kind : CalloutKind) (title : Option (List Inline)) (padding : Option String)
      (children : List Block)
  | collapse (title : List Inline) (isOpen : Bool) (children : List Block)
  | fullColumnSpan (children : List Block)
  /-- Content with a number of its own. Shows as its children. -/
  | numbered (key : String) (children : List Block)
  /-- What the evaluation of a call left. Shows as its children. -/
  | expanded (children : List Block)
  | pageBreak
  | tableOfContents (title : Option (List Inline)) (maxDepth : UInt8)
  | linkDefinition (definition : LinkDefinition)
  /-- Content that scripts copy to the margin of every page. -/
  | pageMargin (position : MarginPosition) (children : List Block)
  | slides (settings : SlideSettings)

/-- An item of a list, with a state when it is a task. -/
inductive ListItem where
  | mk (content : List Block) (checked : Option Bool)

end

deriving instance Repr, Inhabited for Block, ListItem

namespace ListItem

def content : ListItem → List Block
  | mk content _ => content

def checked : ListItem → Option Bool
  | mk _ checked => checked

end ListItem

structure Document where
  blocks : List Block
  deriving Repr, Inhabited

end Quire
