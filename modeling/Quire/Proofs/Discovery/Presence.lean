import Quire.Proofs.Discovery.Pass

/-!
# Presence

A capability is present after discovery if and only if a node of the document needs it, however deep
and in whatever field the node stands.
-/

namespace Quire

/-- A node stands in a field of another one. There is one constructor for each field. -/
inductive Node.Holds : Node → Node → Prop where
  | paragraph {content : List Inline} {i : Inline} (h : i ∈ content) :
    Holds (.block (.paragraph content)) (.inline i)
  | heading {depth : UInt8} {content : List Inline} {customId : Option String} {i : Inline}
    (h : i ∈ content) : Holds (.block (.heading depth content customId)) (.inline i)
  | quote {kind : Option QuoteKind} {attribution : Option (List Inline)} {content : List Block}
    {b : Block} (h : b ∈ content) :
    Holds (.block (.blockQuote kind attribution content)) (.block b)
  | attribution {kind : Option QuoteKind} {attribution : List Inline} {content : List Block}
    {i : Inline} (h : i ∈ attribution) :
    Holds (.block (.blockQuote kind (some attribution) content)) (.inline i)
  | orderedItem {start : UInt32} {items : List ListItem} {content : List Block}
    {checked : Option Bool} {b : Block} (item : .mk content checked ∈ items) (h : b ∈ content) :
    Holds (.block (.orderedList start items)) (.block b)
  | unorderedItem {items : List ListItem} {content : List Block} {checked : Option Bool}
    {b : Block} (item : .mk content checked ∈ items) (h : b ∈ content) :
    Holds (.block (.unorderedList items)) (.block b)
  | headerCell {table : Table} {cell : List Inline} {i : Inline} (inHeader : cell ∈ table.header)
    (h : i ∈ cell) : Holds (.block (.table table)) (.inline i)
  | bodyCell {table : Table} {row : List (List Inline)} {cell : List Inline} {i : Inline}
    (inRows : row ∈ table.rows) (inRow : cell ∈ row) (h : i ∈ cell) :
    Holds (.block (.table table)) (.inline i)
  | figure {child : Block} {caption : Option String} :
    Holds (.block (.figure child caption)) (.block child)
  | container {children : List Block} {style : ContainerStyle} {b : Block} (h : b ∈ children) :
    Holds (.block (.container children style)) (.block b)
  | calloutTitle {kind : CalloutKind} {title : List Inline} {padding : Option String}
    {children : List Block} {i : Inline} (h : i ∈ title) :
    Holds (.block (.callout kind (some title) padding children)) (.inline i)
  | callout {kind : CalloutKind} {title : Option (List Inline)} {padding : Option String}
    {children : List Block} {b : Block} (h : b ∈ children) :
    Holds (.block (.callout kind title padding children)) (.block b)
  | collapseTitle {title : List Inline} {isOpen : Bool} {children : List Block} {i : Inline}
    (h : i ∈ title) : Holds (.block (.collapse title isOpen children)) (.inline i)
  | collapse {title : List Inline} {isOpen : Bool} {children : List Block} {b : Block}
    (h : b ∈ children) : Holds (.block (.collapse title isOpen children)) (.block b)
  | fullColumnSpan {children : List Block} {b : Block} (h : b ∈ children) :
    Holds (.block (.fullColumnSpan children)) (.block b)
  | numbered {key : String} {children : List Block} {b : Block} (h : b ∈ children) :
    Holds (.block (.numbered key children)) (.block b)
  | expanded {children : List Block} {b : Block} (h : b ∈ children) :
    Holds (.block (.expanded children)) (.block b)
  | contentsTitle {title : List Inline} {maxDepth : UInt8} {i : Inline} (h : i ∈ title) :
    Holds (.block (.tableOfContents (some title) maxDepth)) (.inline i)
  | pageMargin {position : MarginPosition} {children : List Block} {b : Block}
    (h : b ∈ children) : Holds (.block (.pageMargin position children)) (.block b)
  | emphasis {content : List Inline} {i : Inline} (h : i ∈ content) :
    Holds (.inline (.emphasis content)) (.inline i)
  | strong {content : List Inline} {i : Inline} (h : i ∈ content) :
    Holds (.inline (.strong content)) (.inline i)
  | strikethrough {content : List Inline} {i : Inline} (h : i ∈ content) :
    Holds (.inline (.strikethrough content)) (.inline i)
  | link {content : List Inline} {target : LinkTarget} {i : Inline} (h : i ∈ content) :
    Holds (.inline (.link content target)) (.inline i)
  | referenceLink {content : List Inline} {label : String} {i : Inline} (h : i ∈ content) :
    Holds (.inline (.referenceLink content label)) (.inline i)
  | alt {url : String} {alt : List Inline} {title width height : Option String} {i : Inline}
    (h : i ∈ alt) : Holds (.inline (.image url alt title width height)) (.inline i)
  | textTransform {look : TextLook} {content : List Inline} {i : Inline} (h : i ∈ content) :
    Holds (.inline (.textTransform look content)) (.inline i)
  | collapsed {text placeholder : List Inline} {isOpen : Bool} {i : Inline} (h : i ∈ text) :
    Holds (.inline (.inlineCollapse text placeholder isOpen)) (.inline i)
  | placeholder {text placeholder : List Inline} {isOpen : Bool} {i : Inline}
    (h : i ∈ placeholder) :
    Holds (.inline (.inlineCollapse text placeholder isOpen)) (.inline i)

inductive Document.Contains (document : Document) : Node → Prop where
  | top {b : Block} (h : b ∈ document.blocks) : Contains document (.block b)
  | field {parent child : Node} (above : Contains document parent) (h : parent.Holds child) :
    Contains document child

namespace Node

theorem holds_of_mem_children {parent child : Node} (h : child ∈ parent.children) :
    parent.Holds child := by
  cases parent with
  | block b =>
    cases b with
    | table t =>
      simp only [children, blockChildren, Table.cells, List.mem_map, List.mem_flatten,
        List.mem_append] at h
      obtain ⟨i, ⟨cell, header | ⟨row, row_mem, cell_mem⟩, mem⟩, rfl⟩ := h
      · exact .headerCell header mem
      · exact .bodyCell row_mem cell_mem mem
    | orderedList start items =>
      simp only [children, blockChildren, List.mem_map, List.mem_flatMap] at h
      obtain ⟨b, ⟨⟨content, checked⟩, item, mem⟩, rfl⟩ := h
      exact .orderedItem item mem
    | unorderedList items =>
      simp only [children, blockChildren, List.mem_map, List.mem_flatMap] at h
      obtain ⟨b, ⟨⟨content, checked⟩, item, mem⟩, rfl⟩ := h
      exact .unorderedItem item mem
    | blockQuote kind attribution content =>
      simp only [children, blockChildren, List.mem_map, List.mem_append] at h
      rcases h with ⟨b, mem, rfl⟩ | ⟨i, mem, rfl⟩
      · exact .quote mem
      · cases attribution with
        | none => simp at mem
        | some attribution => exact .attribution mem
    | callout kind title padding blocks =>
      simp only [children, blockChildren, List.mem_map, List.mem_append] at h
      rcases h with ⟨i, mem, rfl⟩ | ⟨b, mem, rfl⟩
      · cases title with
        | none => simp at mem
        | some title => exact .calloutTitle mem
      · exact .callout mem
    | collapse title isOpen blocks =>
      simp only [children, blockChildren, List.mem_map, List.mem_append] at h
      rcases h with ⟨i, mem, rfl⟩ | ⟨b, mem, rfl⟩
      · exact .collapseTitle mem
      · exact .collapse mem
    | tableOfContents title maxDepth =>
      simp only [children, blockChildren, List.mem_map] at h
      obtain ⟨i, mem, rfl⟩ := h
      cases title with
      | none => simp at mem
      | some title => exact .contentsTitle mem
    | figure child caption =>
      simp only [children, blockChildren, List.mem_singleton] at h
      subst h
      exact .figure
    | paragraph | heading | container | fullColumnSpan | numbered | expanded | pageMargin =>
      obtain ⟨_, mem, rfl⟩ := List.mem_map.mp h
      constructor
      exact mem
    | _ => exact absurd h List.not_mem_nil
  | inline i =>
    obtain ⟨child, mem, rfl⟩ := List.mem_map.mp h
    cases i with
    | inlineCollapse text placeholder isOpen =>
      rcases List.mem_append.mp mem with mem | mem
      · exact .collapsed mem
      · exact .placeholder mem
    | emphasis | strong | strikethrough | link | referenceLink | image | textTransform =>
      constructor
      exact mem
    | _ => exact absurd mem List.not_mem_nil

theorem mem_children_of_holds {parent child : Node} (h : parent.Holds child) :
    child ∈ parent.children := by
  cases h with
  | orderedItem item mem | unorderedItem item mem =>
    exact List.mem_map_of_mem (List.mem_flatMap.mpr ⟨_, item, mem⟩)
  | headerCell inHeader mem =>
    refine List.mem_map_of_mem (List.mem_flatten.mpr ⟨_, ?_, mem⟩)
    exact List.mem_append_left _ inHeader
  | bodyCell inRows inRow mem =>
    refine List.mem_map_of_mem (List.mem_flatten.mpr ⟨_, ?_, mem⟩)
    exact List.mem_append_right _ (List.mem_flatten.mpr ⟨_, inRows, inRow⟩)
  | quote mem | calloutTitle mem | collapseTitle mem =>
    exact List.mem_append_left _ (List.mem_map_of_mem mem)
  | attribution mem | callout mem | collapse mem =>
    exact List.mem_append_right _ (List.mem_map_of_mem mem)
  | figure => exact List.mem_singleton_self _
  | collapsed mem => exact List.mem_map_of_mem (List.mem_append_left _ mem)
  | placeholder mem => exact List.mem_map_of_mem (List.mem_append_right _ mem)
  | _ mem => exact List.mem_map_of_mem mem

theorem mem_nodes_self (node : Node) : node ∈ node.nodes := by
  rw [nodes_eq_cons]
  exact List.mem_cons_self

/-- Below a node stand its children, and what stands below them. -/
theorem mem_nodes_iff {node other : Node} :
    other ∈ node.nodes ↔ other = node ∨ ∃ child ∈ node.children, other ∈ child.nodes := by
  rw [nodes_eq_cons, List.mem_cons, List.mem_flatMap]

theorem length_nodes_of_mem_children {parent child : Node} (h : child ∈ parent.children) :
    child.nodes.length < parent.nodes.length := by
  have part : child.nodes.Sublist (parent.children.flatMap nodes) :=
    List.sublist_flatten_of_mem (List.mem_map_of_mem h)
  have bound := part.length_le
  rw [nodes_eq_cons parent, List.length_cons]
  omega

/-- What holds of a node as soon as it holds of its children holds of every node. -/
theorem children_induction {P : Node → Prop}
    (step : ∀ node, (∀ child ∈ node.children, P child) → P node) (node : Node) : P node := by
  induction n : node.nodes.length using Nat.strongRecOn generalizing node with
  | _ n ih =>
    subst n
    exact step node fun child below => ih _ (length_nodes_of_mem_children below) child rfl

theorem mem_nodes_of_holds {node parent child : Node} (mem : parent ∈ node.nodes)
    (h : parent.Holds child) : child ∈ node.nodes := by
  induction node using children_induction with
  | step node ih =>
    rcases mem_nodes_iff.mp mem with rfl | ⟨next, below, mem⟩
    · exact mem_nodes_iff.mpr (.inr ⟨child, mem_children_of_holds h, mem_nodes_self child⟩)
    · exact mem_nodes_iff.mpr (.inr ⟨next, below, ih next below mem⟩)

end Node

namespace Document

variable {document : Document}

theorem contains_of_mem_nodes {node other : Node} (h : document.Contains node)
    (mem : other ∈ node.nodes) : document.Contains other := by
  induction node using Node.children_induction with
  | step node ih =>
    rcases Node.mem_nodes_iff.mp mem with rfl | ⟨next, below, mem⟩
    · exact h
    · exact ih next below (h.field (Node.holds_of_mem_children below)) mem

/-- The nodes that discovery passes are the nodes that a document contains. -/
theorem mem_nodes_iff_contains {node : Node} : node ∈ document.nodes ↔ document.Contains node := by
  rw [nodes_eq_flatMap, List.mem_flatMap]
  constructor
  · rintro ⟨root, mem, below⟩
    obtain ⟨b, inBlocks, rfl⟩ := List.mem_map.mp mem
    exact contains_of_mem_nodes (.top inBlocks) below
  · intro h
    induction h with
    | top mem => exact ⟨_, List.mem_map_of_mem mem, Node.mem_nodes_self _⟩
    | field _ holds ih =>
      obtain ⟨root, mem, below⟩ := ih
      exact ⟨root, mem, Node.mem_nodes_of_holds below holds⟩

end Document

/-- A visit adds what its node needs to the presence, so a pass adds what any node needs. -/
theorem Discovery.presence_foldl {discovery : Discovery} (h : discovery.IsStandard)
    (nodes : List Node) (c : Capability) :
    (nodes.foldl visit discovery).index.presence.has c =
      (discovery.index.presence.has c || nodes.any (·.needs c)) := by
  induction nodes generalizing discovery with
  | nil => simp
  | cons node rest ih =>
    obtain ⟨place, observers⟩ := id h
    rw [List.foldl_cons, ih (isStandard_visit h node), index_visit observers,
      Presence.has_markNeeded, List.any_cons, Bool.or_assoc]

theorem Document.presence_iff (document : Document) (c : Capability) :
    document.index.presence.has c = true ↔
      ∃ node, document.Contains node ∧ node.needs c = true := by
  have none : (Discovery.index {}).presence.has c = false := by
    cases c <;> rfl
  rw [index_eq_foldl, Discovery.presence_foldl Discovery.isStandard_initial, none, Bool.false_or,
    List.any_eq_true]
  simp only [mem_nodes_iff_contains]

end Quire
