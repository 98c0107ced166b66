import Quire.Job
import Quire.Proofs.Discovery.Pass

/-!
# Rendering with notes instead of cursors

A second renderer counts nothing: it is handed what the pass registered at each node, by the
address of the node in the tree. Both renderers write the same, and the cursors end where the
index ends.
-/

namespace Quire

open Html

/-- Where a node stands: which child to take, level by level from the top. -/
abbrev Address := List Nat

/-- What a pass registered while it visited one node. -/
structure Note where
  identifier : Option String
  location : LocationKind → Option Location

namespace Note

def nothing : Note := ⟨none, fun _ => none⟩

/-- The entries of an index that come right behind those of an earlier one. -/
def between (before after : Index) : Note :=
  { identifier := (after.identifierAt? before.identifiers.size).map (·.1)
    location := fun kind => after.locationAt? kind (before.locationCount kind) }

end Note

/-- The notes of a node and all below it, by the way that leads there. -/
abbrev Notes := Address → Note

def Notes.here (notes : Notes) : Note := notes []

def Notes.below (notes : Notes) (i : Nat) : Notes := fun address => notes (i :: address)

/-- What a pass registers at an address below a row of nodes, given its state before them. -/
def Discovery.notes (discovery : Discovery) (nodes : List Node) : Notes
  | [] => .nothing
  | i :: address =>
    match nodes[i]? with
    | none => .nothing
    | some node =>
      let before := Node.walk visit discovery (nodes.take i)
      let after := before.visit node
      if address = [] then .between before.index after.index
      else after.notes node.children address

namespace Context

/-- The label of a location, if there is one and labels are wanted. -/
def labelOf (context : Context) (kind : LocationKind) (location : Option Location) :
    Option String :=
  if context.options.locationAwareness then do
    (context.labelling kind (← location)).filter (!·.isEmpty)
  else none

def annotatedHeading (context : Context) (note : Note) (depth : UInt8) (content : List Inline)
    (customId : Option String) : Fragment :=
  let id := if context.showsIdentifier customId.isSome then note.identifier else none
  if depth = 0 then marker id
  else
    (if context.breaksPage depth then pageBreak else .empty) ++
      heading depth id (context.labelOf .heading (note.location .heading))
        (context.inlines content)

end Context

mutual

def Block.annotated (context : Context) (notes : Notes) : Block → Fragment
  | .heading depth content customId =>
    context.annotatedHeading notes.here depth content customId
  | .blockQuote kind source content =>
    .blockElement "blockquote" (quoteAttributes context kind)
      (Block.annotatedAll context notes 0 content ++ attribution (source.map context.inlines))
  | .orderedList start items => orderedList start (ListItem.annotatedAll context notes 0 items)
  | .unorderedList items => .blockElement "ul" [] (ListItem.annotatedAll context notes 0 items)
  | .table t =>
    Html.table context (context.labelOf .table (notes.here.location .table)) t
  | .figure child captionText =>
    Html.figure context (context.labelOf .figure (notes.here.location .figure)) captionText
      (child.annotated context (notes.below 0))
  | .container children style =>
    .blockElement "div" (containerAttributes style) (Block.annotatedAll context notes 0 children)
  | .callout kind title padding children =>
    Html.callout kind (title.map context.inlines) padding
      (Block.annotatedAll context notes (title.getD []).length children)
  | .collapse title isOpen children =>
    Html.collapse (context.inlines title) isOpen
      (Block.annotatedAll context notes title.length children)
  | .fullColumnSpan children =>
    classedDiv "full-column-span" (Block.annotatedAll context notes 0 children)
  | .numbered _ children => Block.annotatedAll context notes 0 children
  | .expanded children => Block.annotatedAll context notes 0 children
  | .pageMargin position children =>
    classedDiv ("page-margin-content page-margin-" ++ position.name)
      (Block.annotatedAll context notes 0 children)
  | leaf => leafBlock context leaf

/-- The markup of blocks that stand in a row of nodes, from a position on. -/
def Block.annotatedAll (context : Context) (notes : Notes) (i : Nat) : List Block → Fragment
  | [] => .empty
  | block :: rest =>
    block.annotated context (notes.below i) ++ Block.annotatedAll context notes (i + 1) rest

def ListItem.annotatedAll (context : Context) (notes : Notes) (i : Nat) :
    List ListItem → Fragment
  | [] => .empty
  | .mk content checked :: rest =>
    let loose := Block.annotatedAll context notes i content
    let shown := match tightContent? content with
      | some tight => context.inlines tight
      | none => loose
    listItem checked shown ++ ListItem.annotatedAll context notes (i + content.length) rest

end

/-- The body of a document whose nodes carry the notes of an ordinary pass. -/
def Document.annotated (document : Document) (context : Context) : Fragment :=
  Block.annotatedAll context (Discovery.notes {} document.roots) 0 document.blocks

def Cursor.of (index : Index) : Cursor :=
  { identifiers := index.identifiers.size
    headings := index.locationCount .heading
    figures := index.locationCount .figure
    tables := index.locationCount .table }

/-- The cursor behind a node, not counting what stands below it. -/
def Cursor.pass (cursor : Cursor) : Node → Cursor
  | .block (.heading depth _ _) =>
    if depth = 0 then cursor.passIdentifier else cursor.passIdentifier.passHeading
  | .block (.figure ..) => cursor.passFigure
  | .block (.table ..) => cursor.passTable
  | _ => cursor

section Simulation

variable {discovery : Discovery} (std : discovery.IsStandard)

include std

theorem cursor_visit (node : Node) :
    Cursor.of (discovery.visit node).index = (Cursor.of discovery.index).pass node := by
  obtain ⟨place, h⟩ := std
  rw [Discovery.index_visit h]
  cases node with
  | inline i => rfl
  | block b =>
    cases b with
    | heading depth content customId =>
      by_cases marker : depth = 0 <;>
        simp [marker, Cursor.of, Cursor.pass, Cursor.passIdentifier, Cursor.passHeading,
          Observer.observeIdentifier, Observer.observeLocation, Index.identify, Index.record,
          Index.locationCount, Locations.ofKind, Locations.record, Registry.push, Registry.size]
    | figure child caption =>
      simp [Cursor.of, Cursor.pass, Cursor.passFigure, Observer.observeIdentifier,
        Observer.observeLocation, Index.record, Index.locationCount, Locations.ofKind,
        Locations.record]
    | table t =>
      simp [Cursor.of, Cursor.pass, Cursor.passTable, Observer.observeIdentifier,
        Observer.observeLocation, Index.record, Index.locationCount, Locations.ofKind,
        Locations.record]
    | _ => rfl

/-- Running text is not counted. -/
theorem cursor_walk_inlines (content : List Inline) :
    Cursor.of (Node.walk Discovery.visit discovery (content.map .inline)).index =
      Cursor.of discovery.index := by
  have uncounted : ∀ pending : List Node, (∀ n ∈ pending, ∃ i, n = .inline i) →
      Cursor.of (Node.walk Discovery.visit discovery pending).index =
        Cursor.of discovery.index := by
    intro pending
    induction discovery, pending using Node.walk.induct Discovery.visit with
    | case1 d => intro _; rw [Node.walk]
    | case2 d node rest ih =>
      intro h
      obtain ⟨i, rfl⟩ := h node List.mem_cons_self
      rw [Node.walk, ih (Discovery.isStandard_visit std _), cursor_visit std]
      · rfl
      · intro n hn
        rcases List.mem_append.mp hn with below | later
        · obtain ⟨j, _, rfl⟩ := List.mem_map.mp below
          exact ⟨j, rfl⟩
        · exact h n (List.mem_cons_of_mem _ later)
  apply uncounted
  intro n hn
  obtain ⟨i, _, rfl⟩ := List.mem_map.mp hn
  exact ⟨i, rfl⟩

end Simulation

namespace Discovery

variable (discovery : Discovery) (first : List Node) (node : Node) (rest : List Node)

/-- The state of a pass when it comes to a node in a row. -/
theorem notes_here :
    ((discovery.notes (first ++ node :: rest)).below first.length).here =
      let before := Node.walk visit discovery first
      .between before.index (before.visit node).index := by
  simp [Notes.here, Notes.below, notes]

theorem notes_below (i : Nat) :
    ((discovery.notes (first ++ node :: rest)).below first.length).below i =
      (((Node.walk visit discovery first).visit node).notes node.children).below i := by
  funext address
  simp [Notes.below, notes]

end Discovery

namespace Context

variable {context : Context} (before : Index) {after : Index}

theorem locationLabel_eq_labelOf {kind : LocationKind} (grows : after.Grows context.index)
    (counted : after.locationCount kind = before.locationCount kind + 1) :
    context.locationLabel kind (before.locationCount kind) =
      context.labelOf kind ((Note.between before after).location kind) := by
  unfold locationLabel labelOf Note.between
  rw [grows.locationAt? (by omega)]

theorem identifierAt?_eq (grows : after.Grows context.index)
    (counted : after.identifiers.size = before.identifiers.size + 1) :
    (context.index.identifierAt? before.identifiers.size).map (·.1) =
      (Note.between before after).identifier := by
  unfold Note.between
  rw [grows.identifierAt? (by omega)]

end Context

section Simulation

variable (context : Context)

/-- A pass has come to a block, the notes are those that it leaves there, and what it finds is
in the index. -/
structure Block.Stands (block : Block) (discovery : Discovery) (notes : Notes) : Prop where
  standard : discovery.IsStandard
  grows : (Node.walk Discovery.visit discovery [.block block]).index.Grows context.index
  here : notes.here = .between discovery.index (discovery.visit (.block block)).index
  below : ∀ i, notes.below i =
    ((discovery.visit (.block block)).notes (Node.blockChildren block)).below i

/-- Rendering from where a pass stands gives the annotated markup, and the cursor ends where the
pass ends. -/
def Block.Agrees (block : Block) : Prop :=
  ∀ discovery notes, block.Stands context discovery notes →
    block.render context (.of discovery.index) =
      (block.annotated context notes,
        .of (Node.walk Discovery.visit discovery [.block block]).index)

/-- The same for blocks in a row of nodes, with `first` before and `rest` behind them. -/
structure Block.AllStand (first : List Node) (blocks : List Block) (rest : List Node)
    (discovery : Discovery) (notes : Notes) : Prop where
  standard : discovery.IsStandard
  grows :
    (Node.walk Discovery.visit discovery (first ++ blocks.map .block)).index.Grows context.index
  below : ∀ i, notes.below i = (discovery.notes (first ++ blocks.map .block ++ rest)).below i

def Block.AllAgree (blocks : List Block) : Prop :=
  ∀ first rest discovery notes, Block.AllStand context first blocks rest discovery notes →
    Block.renderAll context (.of (Node.walk Discovery.visit discovery first).index) blocks =
      (Block.annotatedAll context notes first.length blocks,
        .of (Node.walk Discovery.visit discovery (first ++ blocks.map .block)).index)

def ListItem.AllAgree (items : List ListItem) : Prop :=
  ∀ first rest discovery notes,
    Block.AllStand context first (items.flatMap content) rest discovery notes →
    ListItem.renderAll context (.of (Node.walk Discovery.visit discovery first).index) items =
      (ListItem.annotatedAll context notes first.length items,
        .of (Node.walk Discovery.visit discovery
          (first ++ (items.flatMap content).map .block)).index)

variable {context}

theorem Block.AllStand.head {first rest : List Node} {block : Block} {blocks : List Block}
    {discovery : Discovery} {notes : Notes}
    (h : Block.AllStand context first (block :: blocks) rest discovery notes) :
    block.Stands context (Node.walk Discovery.visit discovery first)
      (notes.below first.length) := by
  have row : first ++ (block :: blocks).map Node.block ++ rest =
      first ++ .block block :: (blocks.map .block ++ rest) := by simp
  refine ⟨Discovery.isStandard_walk h.standard first, ?_, ?_, ?_⟩
  · have later := Discovery.walk_grows
      (Node.walk Discovery.visit discovery (first ++ [.block block])) (blocks.map .block)
    have whole := h.grows
    rw [← Node.walk_append, List.append_assoc] at later
    rw [← Node.walk_append]
    exact later.trans whole
  · rw [h.below, row, Discovery.notes_here]
  · intro i
    rw [h.below, row, Discovery.notes_below]
    rfl

theorem Block.AllStand.front {first rest : List Node} {near far : List Block}
    {discovery : Discovery} {notes : Notes}
    (h : Block.AllStand context first (near ++ far) rest discovery notes) :
    Block.AllStand context first near (far.map .block ++ rest) discovery notes := by
  refine ⟨h.standard, ?_, ?_⟩
  · have later := Discovery.walk_grows
      (Node.walk Discovery.visit discovery (first ++ near.map .block)) (far.map .block)
    have whole := h.grows
    rw [List.map_append, ← List.append_assoc, Node.walk_append] at whole
    exact later.trans whole
  · intro i
    rw [h.below, List.map_append]
    simp only [List.append_assoc]

theorem Block.AllStand.back {first rest : List Node} (near : List Block) {far : List Block}
    {discovery : Discovery} {notes : Notes}
    (h : Block.AllStand context first (near ++ far) rest discovery notes) :
    Block.AllStand context (first ++ near.map .block) far rest discovery notes := by
  refine ⟨h.standard, ?_, ?_⟩
  · have whole := h.grows
    rwa [List.map_append, ← List.append_assoc] at whole
  · intro i
    rw [h.below, List.map_append]
    simp only [List.append_assoc]

theorem Block.allAgree_cons {block : Block} {blocks : List Block} (h : block.Agrees context)
    (k : Block.AllAgree context blocks) : Block.AllAgree context (block :: blocks) := by
  intro first rest discovery notes stand
  have head := h _ _ stand.head
  have tail := k _ _ _ _ (Block.AllStand.back [block] stand)
  rw [← Node.walk_append] at head
  rw [Block.renderAll, head, Block.annotatedAll]
  simp only [List.map_cons, List.map_nil, List.length_append, List.length_singleton,
    List.append_assoc, List.singleton_append] at tail ⊢
  rw [tail]

theorem ListItem.allAgree_cons {content : List Block} {checked : Option Bool}
    {items : List ListItem} (h : Block.AllAgree context content)
    (k : ListItem.AllAgree context items) :
    ListItem.AllAgree context (.mk content checked :: items) := by
  intro first rest discovery notes stand
  rw [List.flatMap_cons] at stand
  have head := h _ _ _ _ stand.front
  have tail := k _ _ _ _ (stand.back content)
  rw [ListItem.renderAll, head, ListItem.annotatedAll, List.flatMap_cons]
  simp only [ListItem.content, List.map_append, List.length_append, List.length_map,
    List.append_assoc] at tail ⊢
  cases tightContent? content <;> simp only [tail]

/-- What stands below a block whose blocks come between `first` and `rest`. -/
theorem Block.Stands.children {block : Block} {discovery : Discovery} {notes : Notes}
    (h : block.Stands context discovery notes) (first : List Node) (blocks : List Block)
    (rest : List Node)
    (eq : Node.blockChildren block = first ++ blocks.map .block ++ rest) :
    Block.AllStand context first blocks rest (discovery.visit (.block block)) notes := by
  refine ⟨Discovery.isStandard_visit h.standard _, ?_, ?_⟩
  · have whole := h.grows
    rw [Node.walk_singleton, Node.children, eq, Node.walk_append] at whole
    exact (Discovery.walk_grows _ rest).trans whole
  · intro i
    rw [h.below, eq]

/-- A block that is not counted itself and holds blocks between running text. -/
theorem Block.Stands.renderAll {block : Block} {discovery : Discovery} {notes : Notes}
    (h : block.Stands context discovery notes) {before after : List Inline} {blocks : List Block}
    (eq : Node.blockChildren block =
      before.map .inline ++ blocks.map .block ++ after.map .inline)
    (agree : Block.AllAgree context blocks) :
    Block.renderAll context ((Cursor.of discovery.index).pass (.block block)) blocks =
      (Block.annotatedAll context notes before.length blocks,
        .of (Node.walk Discovery.visit discovery [.block block]).index) := by
  have std := Discovery.isStandard_visit h.standard (.block block)
  have below := agree _ _ _ _ (h.children _ _ _ eq)
  rw [cursor_walk_inlines std, cursor_visit h.standard, List.length_map] at below
  rw [below, Node.walk_singleton, Node.children, eq,
    Node.walk_append _ _ (before.map Node.inline ++ blocks.map Node.block),
    cursor_walk_inlines (Discovery.isStandard_walk std _)]

theorem Block.Stands.renderItems {block : Block} {discovery : Discovery} {notes : Notes}
    (h : block.Stands context discovery notes) {items : List ListItem}
    (eq : Node.blockChildren block = (items.flatMap ListItem.content).map .block)
    (agree : ListItem.AllAgree context items) :
    ListItem.renderAll context ((Cursor.of discovery.index).pass (.block block)) items =
      (ListItem.annotatedAll context notes 0 items,
        .of (Node.walk Discovery.visit discovery [.block block]).index) := by
  have below := agree [] [] _ _ (h.children [] _ [] (by simpa using eq))
  rw [Node.walk, cursor_visit h.standard] at below
  rw [Node.walk_singleton, Node.children, eq]
  exact below

/-- A block with nothing but running text below it. -/
theorem Block.Stands.cursor {block : Block} {discovery : Discovery} {notes : Notes}
    (h : block.Stands context discovery notes) (content : List Inline)
    (eq : Node.blockChildren block = content.map .inline) :
    Cursor.of (Node.walk Discovery.visit discovery [.block block]).index =
      (Cursor.of discovery.index).pass (.block block) := by
  rw [Node.walk_singleton, Node.children, eq,
    cursor_walk_inlines (Discovery.isStandard_visit h.standard _), cursor_visit h.standard]

/-- The index of a render holds what the visit of the block found. -/
theorem Block.Stands.grows_visit {block : Block} {discovery : Discovery} {notes : Notes}
    (h : block.Stands context discovery notes) :
    (discovery.visit (.block block)).index.Grows context.index := by
  have whole := h.grows
  rw [Node.walk_singleton] at whole
  exact (Discovery.walk_grows _ _).trans whole

theorem Block.agrees_heading (depth : UInt8) (content : List Inline) (customId : Option String) :
    (Block.heading depth content customId).Agrees context := by
  intro discovery notes stands
  have last := stands.cursor content rfl
  have step := cursor_visit stands.standard (.block (.heading depth content customId))
  have identifier := Context.identifierAt?_eq discovery.index stands.grows_visit
  rw [Block.render, Block.annotated, last, stands.here]
  unfold renderHeading Context.annotatedHeading
  by_cases marker : depth = 0
  · subst marker
    simp only [Cursor.pass, if_true] at step ⊢
    rw [← identifier (congrArg Cursor.identifiers step)]
    rfl
  · simp only [Cursor.pass, marker, if_false] at step ⊢
    have label := Context.locationLabel_eq_labelOf discovery.index stands.grows_visit
      (congrArg Cursor.headings step)
    rw [← identifier (congrArg Cursor.identifiers step), ← label]
    rfl

theorem Block.agrees_table (t : Table) : (Block.table t).Agrees context := by
  intro discovery notes stands
  have last := stands.cursor t.cells.flatten rfl
  have step := cursor_visit stands.standard (.block (.table t))
  have label := Context.locationLabel_eq_labelOf discovery.index stands.grows_visit
    (congrArg Cursor.tables step)
  rw [Block.render, Block.annotated, last, stands.here, ← label]
  rfl

theorem Block.agrees_figure {child : Block} (h : child.Agrees context) (caption : Option String) :
    (Block.figure child caption).Agrees context := by
  intro discovery notes stands
  have step := cursor_visit stands.standard (.block (.figure child caption))
  have label := Context.locationLabel_eq_labelOf discovery.index stands.grows_visit
    (congrArg Cursor.figures step)
  have below := h _ _ (stands.children [] [child] [] rfl).head
  rw [Node.walk, step] at below
  rw [Block.render, Block.annotated, Node.walk_singleton, stands.here, ← label]
  simp only [Cursor.pass, List.length_nil] at below
  simp only [below]
  rfl

/-- A block that is not counted itself writes something around the blocks that it holds. -/
theorem Block.agrees_of_children {block : Block} {blocks : List Block}
    (before after : List Inline) (around : Fragment → Fragment)
    (agree : Block.AllAgree context blocks)
    (children : Node.blockChildren block =
      before.map .inline ++ blocks.map .block ++ after.map .inline)
    (uncounted : ∀ cursor : Cursor, cursor.pass (.block block) = cursor)
    (render : ∀ cursor, block.render context cursor =
      ((Block.renderAll context cursor blocks).map around id))
    (annotated : ∀ notes, block.annotated context notes =
      around (Block.annotatedAll context notes before.length blocks)) :
    block.Agrees context := by
  intro discovery notes stands
  have below := stands.renderAll children agree
  rw [uncounted] at below
  rw [render, below, annotated]
  rfl

theorem Block.agrees_of_items {block : Block} {items : List ListItem}
    (around : Fragment → Fragment) (agree : ListItem.AllAgree context items)
    (children : Node.blockChildren block = (items.flatMap ListItem.content).map .block)
    (uncounted : ∀ cursor : Cursor, cursor.pass (.block block) = cursor)
    (render : ∀ cursor, block.render context cursor =
      ((ListItem.renderAll context cursor items).map around id))
    (annotated : ∀ notes, block.annotated context notes =
      around (ListItem.annotatedAll context notes 0 items)) :
    block.Agrees context := by
  intro discovery notes stands
  have below := stands.renderItems children agree
  rw [uncounted] at below
  rw [render, below, annotated]
  rfl

/-- A block with nothing but running text below it that is not counted. -/
theorem Block.agrees_leaf {block : Block} (content : List Inline)
    (children : Node.blockChildren block = content.map .inline)
    (uncounted : ∀ cursor : Cursor, cursor.pass (.block block) = cursor)
    (render : ∀ cursor, block.render context cursor = (leafBlock context block, cursor))
    (annotated : ∀ notes, block.annotated context notes = leafBlock context block) :
    block.Agrees context := by
  intro discovery notes stands
  rw [render, annotated, stands.cursor content children, uncounted]

mutual

theorem Block.agrees : ∀ block : Block, block.Agrees context
  | .heading depth content customId => Block.agrees_heading depth content customId
  | .table t => Block.agrees_table t
  | .figure child caption => Block.agrees_figure child.agrees caption
  | .blockQuote kind source content =>
    Block.agrees_of_children [] (source.getD [])
      (fun inner => .blockElement "blockquote" (quoteAttributes context kind)
        (inner ++ attribution (source.map context.inlines)))
      (Block.allAgree content) rfl (fun _ => rfl)
      (fun _ => by rw [Block.render]; rfl) (fun _ => by rw [Block.annotated]; rfl)
  | .orderedList start items =>
    Block.agrees_of_items (orderedList start) (ListItem.allAgree items) rfl (fun _ => rfl)
      (fun _ => by rw [Block.render]; rfl) (fun _ => by rw [Block.annotated])
  | .unorderedList items =>
    Block.agrees_of_items (.blockElement "ul" []) (ListItem.allAgree items) rfl (fun _ => rfl)
      (fun _ => by rw [Block.render]; rfl) (fun _ => by rw [Block.annotated])
  | .container children style =>
    Block.agrees_of_children [] [] (.blockElement "div" (containerAttributes style))
      (Block.allAgree children) (by simp [Node.blockChildren]) (fun _ => rfl)
      (fun _ => by rw [Block.render]; rfl) (fun _ => by rw [Block.annotated]; rfl)
  | .callout kind title padding children =>
    Block.agrees_of_children (title.getD []) []
      (Html.callout kind (title.map context.inlines) padding)
      (Block.allAgree children) (by simp [Node.blockChildren]) (fun _ => rfl)
      (fun _ => by rw [Block.render]; rfl) (fun _ => by rw [Block.annotated])
  | .collapse title isOpen children =>
    Block.agrees_of_children title [] (Html.collapse (context.inlines title) isOpen)
      (Block.allAgree children) (by simp [Node.blockChildren]) (fun _ => rfl)
      (fun _ => by rw [Block.render]; rfl) (fun _ => by rw [Block.annotated])
  | .fullColumnSpan children =>
    Block.agrees_of_children [] [] (classedDiv "full-column-span")
      (Block.allAgree children) (by simp [Node.blockChildren]) (fun _ => rfl)
      (fun _ => by rw [Block.render]; rfl) (fun _ => by rw [Block.annotated]; rfl)
  | .numbered _ children =>
    Block.agrees_of_children [] [] id
      (Block.allAgree children) (by simp [Node.blockChildren]) (fun _ => rfl)
      (fun _ => by rw [Block.render]; rfl) (fun _ => by rw [Block.annotated]; rfl)
  | .expanded children =>
    Block.agrees_of_children [] [] id
      (Block.allAgree children) (by simp [Node.blockChildren]) (fun _ => rfl)
      (fun _ => by rw [Block.render]; rfl) (fun _ => by rw [Block.annotated]; rfl)
  | .pageMargin position children =>
    Block.agrees_of_children [] []
      (classedDiv ("page-margin-content page-margin-" ++ position.name))
      (Block.allAgree children) (by simp [Node.blockChildren]) (fun _ => rfl)
      (fun _ => by rw [Block.render]; rfl) (fun _ => by rw [Block.annotated]; rfl)
  | .paragraph content =>
    Block.agrees_leaf content rfl (fun _ => rfl) (fun _ => by simp only [Block.render])
      (fun _ => by simp only [Block.annotated])
  | .tableOfContents title _ =>
    Block.agrees_leaf (title.getD []) rfl (fun _ => rfl) (fun _ => by simp only [Block.render])
      (fun _ => by simp only [Block.annotated])
  | .codeBlock .. | .horizontalRule | .html _ | .math _ | .mermaidDiagram _ | .tikzDiagram _
  | .pageBreak | .linkDefinition _ | .slides _ =>
    Block.agrees_leaf [] rfl (fun _ => rfl) (fun _ => by simp only [Block.render])
      (fun _ => by simp only [Block.annotated])

theorem Block.allAgree : ∀ blocks : List Block, Block.AllAgree context blocks
  | [] => by
    intro first rest discovery notes _
    simp [Block.renderAll, Block.annotatedAll]
  | block :: blocks => Block.allAgree_cons block.agrees (Block.allAgree blocks)

theorem ListItem.allAgree : ∀ items : List ListItem, ListItem.AllAgree context items
  | [] => by
    intro first rest discovery notes _
    simp [ListItem.renderAll, ListItem.annotatedAll]
  | .mk content _ :: items =>
    ListItem.allAgree_cons (Block.allAgree content) (ListItem.allAgree items)

end

end Simulation

/-- Rendering in the context that discovery has filled gives every heading, figure and table what
the pass registered at that very node, and takes every entry of the index. -/
theorem render_discovered_eq_annotated (context : Context) (document : Document) :
    document.render (context.discover document) {} =
      (document.annotated (context.discover document),
        { identifiers := document.index.identifiers.size
          headings := document.index.locationCount .heading
          figures := document.index.locationCount .figure
          tables := document.index.locationCount .table }) := by
  have roots : Block.AllStand (context.discover document) [] document.blocks [] {}
      (Discovery.notes {} document.roots) := by
    refine ⟨Discovery.isStandard_initial, .refl _, fun i => ?_⟩
    rw [List.nil_append, List.append_nil]
    rfl
  have agree := Block.allAgree document.blocks _ _ _ _ roots
  rw [Node.walk] at agree
  exact agree

end Quire
