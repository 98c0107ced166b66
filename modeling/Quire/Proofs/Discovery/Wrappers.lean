import Quire.Proofs.Discovery.Pass
import Mathlib.Logic.Relation

/-!
# Discovery and wrappers

A numbered or an expanded block shows as its children. A pass does not notice such a wrapper, so
what it finds is the same when wrappers are replaced by their children.
-/

namespace Quire

mutual

/-- In a block one wrapper is replaced by its children, in any list of blocks below it. -/
inductive Block.Unwraps : Block → Block → Prop where
  | blockQuote {content shown : List Block} (kind : Option QuoteKind)
      (attribution : Option (List Inline)) (h : Block.UnwrapsOne content shown) :
      Block.Unwraps (.blockQuote kind attribution content) (.blockQuote kind attribution shown)
  | orderedList {items shown : List ListItem} (start : UInt32)
      (h : ListItem.UnwrapsOne items shown) :
      Block.Unwraps (.orderedList start items) (.orderedList start shown)
  | unorderedList {items shown : List ListItem} (h : ListItem.UnwrapsOne items shown) :
      Block.Unwraps (.unorderedList items) (.unorderedList shown)
  | figure {child shown : Block} (caption : Option String) (h : Block.Unwraps child shown) :
      Block.Unwraps (.figure child caption) (.figure shown caption)
  | container {children shown : List Block} (style : ContainerStyle)
      (h : Block.UnwrapsOne children shown) :
      Block.Unwraps (.container children style) (.container shown style)
  | callout {children shown : List Block} (kind : CalloutKind) (title : Option (List Inline))
      (padding : Option String) (h : Block.UnwrapsOne children shown) :
      Block.Unwraps (.callout kind title padding children) (.callout kind title padding shown)
  | collapse {children shown : List Block} (title : List Inline) (isOpen : Bool)
      (h : Block.UnwrapsOne children shown) :
      Block.Unwraps (.collapse title isOpen children) (.collapse title isOpen shown)
  | fullColumnSpan {children shown : List Block} (h : Block.UnwrapsOne children shown) :
      Block.Unwraps (.fullColumnSpan children) (.fullColumnSpan shown)
  | numbered {children shown : List Block} (key : String) (h : Block.UnwrapsOne children shown) :
      Block.Unwraps (.numbered key children) (.numbered key shown)
  | expanded {children shown : List Block} (h : Block.UnwrapsOne children shown) :
      Block.Unwraps (.expanded children) (.expanded shown)
  | pageMargin {children shown : List Block} (position : MarginPosition)
      (h : Block.UnwrapsOne children shown) :
      Block.Unwraps (.pageMargin position children) (.pageMargin position shown)

/-- In a list of blocks one wrapper is replaced by its children, there or below. -/
inductive Block.UnwrapsOne : List Block → List Block → Prop where
  | numbered (key : String) (children rest : List Block) :
      Block.UnwrapsOne (.numbered key children :: rest) (children ++ rest)
  | expanded (children rest : List Block) :
      Block.UnwrapsOne (.expanded children :: rest) (children ++ rest)
  | head {block shown : Block} (rest : List Block) (h : Block.Unwraps block shown) :
      Block.UnwrapsOne (block :: rest) (shown :: rest)
  | tail {rest shown : List Block} (block : Block) (h : Block.UnwrapsOne rest shown) :
      Block.UnwrapsOne (block :: rest) (block :: shown)

/-- In the content of one item one wrapper is replaced by its children. -/
inductive ListItem.UnwrapsOne : List ListItem → List ListItem → Prop where
  | head {content shown : List Block} (checked : Option Bool) (rest : List ListItem)
      (h : Block.UnwrapsOne content shown) :
      ListItem.UnwrapsOne (.mk content checked :: rest) (.mk shown checked :: rest)
  | tail {rest shown : List ListItem} (item : ListItem) (h : ListItem.UnwrapsOne rest shown) :
      ListItem.UnwrapsOne (item :: rest) (item :: shown)

end

/-- Any number of wrappers are replaced by their children, one after the other. -/
def Document.Unwraps (document shown : Document) : Prop :=
  Relation.ReflTransGen Block.UnwrapsOne document.blocks shown.blocks

namespace Node

/-- What an ordinary pass notices of a node: nothing of a block that only holds others, and of a
figure no more than that it is there. -/
def noticed? : Node → Option Node
  | .block (.figure ..) => some (.block (.figure .horizontalRule none))
  | .block (.blockQuote ..) | .block (.orderedList ..) | .block (.unorderedList ..)
  | .block (.container ..) | .block (.callout ..) | .block (.collapse ..)
  | .block (.fullColumnSpan ..) | .block (.numbered ..) | .block (.expanded ..)
  | .block (.pageMargin ..) => none
  | node => some node

def noticed (nodes : List Node) : List Node := nodes.filterMap noticed?

theorem noticed_append (a b : List Node) : noticed (a ++ b) = noticed a ++ noticed b :=
  List.filterMap_append

theorem noticed_cons {node : Node} (h : node.noticed? = none) (rest : List Node) :
    noticed (node :: rest) = noticed rest := List.filterMap_cons_none h

end Node

theorem Block.nodesOf_append (a b : List Block) :
    Block.nodesOf (a ++ b) = Block.nodesOf a ++ Block.nodesOf b := by
  simp only [Node.block_nodesOf, List.flatMap_append]

mutual

theorem Block.Unwraps.noticed {block shown : Block} :
    block.Unwraps shown → Node.noticed block.nodes = Node.noticed shown.nodes
  | .orderedList _ h | .unorderedList h => by
    rw [Block.nodes, Block.nodes, Node.noticed_cons rfl, Node.noticed_cons rfl, h.noticed]
  | .figure caption h => by
    rw [Block.nodes, Block.nodes]
    exact congrArg (_ :: ·) h.noticed
  | .blockQuote _ _ h | .callout _ _ _ h | .collapse _ _ h => by
    rw [Block.nodes, Block.nodes, Node.noticed_cons rfl, Node.noticed_cons rfl, Node.noticed_append,
      Node.noticed_append, h.noticed]
  | .container _ h | .fullColumnSpan h | .numbered _ h | .expanded h | .pageMargin _ h => by
    rw [Block.nodes, Block.nodes, Node.noticed_cons rfl, Node.noticed_cons rfl, h.noticed]

theorem Block.UnwrapsOne.noticed {blocks shown : List Block} :
    Block.UnwrapsOne blocks shown →
      Node.noticed (Block.nodesOf blocks) = Node.noticed (Block.nodesOf shown)
  | .numbered .. | .expanded .. => by
    rw [Block.nodesOf, Block.nodes, Block.nodesOf_append, List.cons_append,
      Node.noticed_cons rfl]
  | .head _ h | .tail _ h => by
    rw [Block.nodesOf, Block.nodesOf, Node.noticed_append, Node.noticed_append, h.noticed]

theorem ListItem.UnwrapsOne.noticed {items shown : List ListItem} :
    ListItem.UnwrapsOne items shown →
      Node.noticed (ListItem.nodesOf items) = Node.noticed (ListItem.nodesOf shown)
  | .head _ _ h | .tail (.mk ..) h => by
    rw [ListItem.nodesOf, ListItem.nodesOf, Node.noticed_append, Node.noticed_append, h.noticed]

end

namespace Discovery

/-- One visit of an ordinary pass, on its place and its index. -/
def find (state : Place × Index) (node : Node) : Place × Index :=
  let (place, index) := Observer.observeLocation state.1 state.2 node
  (place,
    { presence := state.2.presence.markNeeded node
      linkDefinitions := (Observer.observeLinkDefinition state.2 node).linkDefinitions
      identifiers := (Observer.observeIdentifier state.2 node).identifiers
      locations := index.locations })

theorem index_foldl {discovery : Discovery} {place : Place}
    (h : discovery.observers = Observer.standardAt place) (nodes : List Node) :
    (nodes.foldl visit discovery).index = (nodes.foldl find (place, discovery.index)).2 := by
  induction nodes generalizing discovery place with
  | nil => rfl
  | cons node rest ih =>
    rw [List.foldl_cons, List.foldl_cons, ih (observers_visit h node), index_visit h]
    rfl

theorem find_noticed (state : Place × Index) (node : Node) :
    find state node = match node.noticed? with
      | some noticed => find state noticed
      | none => state := by
  cases node with
  | inline i => rfl
  | block b =>
    cases b with
    | figure => rfl
    | blockQuote | orderedList | unorderedList | container | callout | collapse | fullColumnSpan
    | numbered | expanded | pageMargin =>
      simp [Node.noticed?, find, Observer.observeLocation, Observer.observeLinkDefinition,
        Observer.observeIdentifier, Presence.markNeeded, Node.needs]
    | _ => rfl

theorem foldl_noticed (state : Place × Index) (nodes : List Node) :
    (Node.noticed nodes).foldl find state = nodes.foldl find state := by
  induction nodes generalizing state with
  | nil => rfl
  | cons node rest ih =>
    rw [List.foldl_cons, find_noticed state node, ← ih]
    cases here : node.noticed? with
    | none => rw [Node.noticed_cons here]
    | some noticed => rw [Node.noticed, List.filterMap_cons_some here]; rfl

end Discovery

theorem Document.index_eq_noticed (document : Document) :
    document.index = ((Node.noticed document.nodes).foldl Discovery.find ({}, {})).2 := by
  rw [Document.index_eq_foldl, Discovery.index_foldl rfl, Discovery.foldl_noticed]
  rfl

theorem Document.Unwraps.noticed {document shown : Document} (h : document.Unwraps shown) :
    Node.noticed document.nodes = Node.noticed shown.nodes := by
  obtain ⟨blocks⟩ := document
  obtain ⟨others⟩ := shown
  change Relation.ReflTransGen Block.UnwrapsOne blocks others at h
  induction h with
  | refl => rfl
  | tail _ step same => exact same.trans step.noticed

/-- Wrappers leave no trace in an index. -/
theorem Document.Unwraps.index {document shown : Document} (h : document.Unwraps shown) :
    document.index = shown.index := by
  rw [index_eq_noticed, index_eq_noticed, h.noticed]

end Quire
