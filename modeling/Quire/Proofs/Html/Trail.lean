import Quire.Proofs.Discovery.Presence
import Quire.Proofs.Html.Annotated

/-!
# The trail of the cursor

A render moves its cursor by the nodes that it passes, in preorder, and by nothing else. So the
nodes of a document alone tell where the cursor stands at each of them.
-/

namespace Quire

open Html

namespace Cursor

variable (cursor : Cursor)

def passAll (nodes : List Node) : Cursor := nodes.foldl pass cursor

@[simp]
theorem passAll_nil : cursor.passAll [] = cursor := rfl

@[simp]
theorem passAll_cons (node : Node) (rest : List Node) :
    cursor.passAll (node :: rest) = (cursor.pass node).passAll rest := rfl

@[simp]
theorem passAll_append (a b : List Node) :
    cursor.passAll (a ++ b) = (cursor.passAll a).passAll b := List.foldl_append

/-- The nodes of a row, each one with the cursor that comes to it. -/
def trail : Cursor → List Node → List (Cursor × Node)
  | _, [] => []
  | cursor, node :: rest => (cursor, node) :: trail (cursor.pass node) rest

@[simp]
theorem trail_nil : cursor.trail [] = [] := rfl

@[simp]
theorem trail_cons (node : Node) (rest : List Node) :
    cursor.trail (node :: rest) = (cursor, node) :: (cursor.pass node).trail rest := rfl

@[simp]
theorem trail_append (a b : List Node) :
    cursor.trail (a ++ b) = cursor.trail a ++ (cursor.passAll a).trail b := by
  induction a generalizing cursor with
  | nil => rfl
  | cons node rest ih => exact congrArg ((cursor, node) :: ·) (ih (cursor.pass node))

end Cursor

/-- Below an inline node stand only inline nodes. -/
theorem Inline.of_mem_nodes {i : Inline} {node : Node} (mem : node ∈ i.nodes) :
    ∃ j, node = .inline j := by
  have below : ∀ top : Node, (∃ i, top = .inline i) → node ∈ top.nodes → ∃ j, node = .inline j := by
    intro top
    induction top using Node.children_induction with
    | step top ih =>
      rintro ⟨i, rfl⟩ mem
      rcases Node.mem_nodes_iff.mp mem with rfl | ⟨child, inside, mem⟩
      · exact ⟨i, rfl⟩
      · obtain ⟨j, -, rfl⟩ := List.mem_map.mp inside
        exact ih _ inside ⟨j, rfl⟩ mem
  exact below (.inline i) ⟨i, rfl⟩ mem

theorem Inline.of_mem_nodesOf {content : List Inline} {node : Node}
    (mem : node ∈ Inline.nodesOf content) : ∃ j, node = .inline j := by
  rw [Node.inline_nodesOf, List.mem_flatMap] at mem
  obtain ⟨i, -, below⟩ := mem
  exact of_mem_nodes below

theorem Cursor.passAll_of_inline (cursor : Cursor) {nodes : List Node}
    (h : ∀ node ∈ nodes, ∃ i, node = .inline i) : cursor.passAll nodes = cursor := by
  induction nodes with
  | nil => rfl
  | cons node rest ih =>
    obtain ⟨⟨i, rfl⟩, later⟩ := List.forall_mem_cons.mp h
    exact ih later

@[simp]
theorem Cursor.passAll_inlines (cursor : Cursor) (content : List Inline) :
    cursor.passAll (Inline.nodesOf content) = cursor :=
  cursor.passAll_of_inline fun _ => Inline.of_mem_nodesOf

@[simp]
theorem Cursor.passAll_cells (cursor : Cursor) (cells : List (List Inline)) :
    cursor.passAll (cells.flatMap Inline.nodesOf) = cursor := by
  refine cursor.passAll_of_inline fun node mem => ?_
  obtain ⟨cell, -, below⟩ := List.mem_flatMap.mp mem
  exact Inline.of_mem_nodesOf below

def Context.headingId? (context : Context) (cursor : Cursor) (customId : Option String) :
    Option String :=
  if context.showsIdentifier customId.isSome then
    (context.index.identifierAt? cursor.identifiers).map (·.1)
  else none

section Render

variable (context : Context)

theorem renderHeading_marker (cursor : Cursor) (content : List Inline) (customId : Option String) :
    renderHeading context cursor 0 content customId =
      (marker (context.headingId? cursor customId), cursor.passIdentifier) := rfl

theorem renderHeading_visible (cursor : Cursor) {depth : UInt8} (visible : depth ≠ 0)
    (content : List Inline) (customId : Option String) :
    renderHeading context cursor depth content customId =
      ((if context.breaksPage depth then pageBreak else .empty) ++
          heading depth (context.headingId? cursor customId)
            (context.locationLabel .heading cursor.headings) (context.inlines content),
        cursor.passIdentifier.passHeading) := by
  rw [renderHeading, if_neg visible]
  rfl

theorem cursor_renderHeading (cursor : Cursor) (depth : UInt8) (content : List Inline)
    (customId : Option String) :
    (renderHeading context cursor depth content customId).2 =
      cursor.pass (.block (.heading depth content customId)) := by
  rw [Cursor.pass]
  by_cases invisible : depth = 0
  · subst invisible
    rw [renderHeading_marker, if_pos rfl]
  · rw [renderHeading_visible context cursor invisible, if_neg invisible]

mutual

theorem Block.cursor_render : ∀ (block : Block) (cursor : Cursor),
    (block.render context cursor).2 = cursor.passAll block.nodes
  | .heading depth content customId, cursor => by
    rw [Block.render, Block.nodes, cursor_renderHeading, Cursor.passAll_cons,
      Cursor.passAll_inlines]
  | .table t, cursor => by
    rw [Block.render, Block.nodes, Cursor.passAll_cons, Cursor.passAll_cells, Cursor.pass]
  | .figure child caption, cursor => by
    rw [Block.render, Block.nodes, Cursor.passAll_cons]
    exact Block.cursor_render child _
  | .blockQuote kind source content, cursor => by
    rw [Block.render, Block.nodes, Cursor.passAll_cons, Cursor.passAll_append,
      Cursor.passAll_inlines]
    exact Block.cursor_renderAll content cursor
  | .orderedList start items, cursor => by
    rw [Block.render, Block.nodes]
    exact ListItem.cursor_renderAll items cursor
  | .unorderedList items, cursor => by
    rw [Block.render, Block.nodes]
    exact ListItem.cursor_renderAll items cursor
  | .container children style, cursor => by
    rw [Block.render, Block.nodes]
    exact Block.cursor_renderAll children cursor
  | .callout kind title padding children, cursor => by
    rw [Block.render, Block.nodes, Cursor.passAll_cons, Cursor.passAll_append,
      Cursor.passAll_inlines]
    exact Block.cursor_renderAll children cursor
  | .collapse title isOpen children, cursor => by
    rw [Block.render, Block.nodes, Cursor.passAll_cons, Cursor.passAll_append,
      Cursor.passAll_inlines]
    exact Block.cursor_renderAll children cursor
  | .fullColumnSpan children, cursor | .numbered _ children, cursor | .expanded children, cursor
  | .pageMargin _ children, cursor => by
    rw [Block.render, Block.nodes]
    exact Block.cursor_renderAll children cursor
  | .paragraph content, cursor => by
    simp only [Block.render]
    rw [Block.nodes, Cursor.passAll_cons, Cursor.passAll_inlines, Cursor.pass]
    all_goals simp
  | .tableOfContents title maxDepth, cursor => by
    simp only [Block.render]
    rw [Block.nodes, Cursor.passAll_cons, Cursor.passAll_inlines, Cursor.pass]
    all_goals simp
  | .codeBlock .., _ | .horizontalRule, _ | .html _, _ | .math _, _ | .mermaidDiagram _, _
  | .tikzDiagram _, _ | .pageBreak, _ | .linkDefinition _, _ | .slides _, _ => by
    simp only [Block.render, Block.nodes]
    rfl

theorem Block.cursor_renderAll : ∀ (blocks : List Block) (cursor : Cursor),
    (Block.renderAll context cursor blocks).2 = cursor.passAll (Block.nodesOf blocks)
  | [], _ => by rw [Block.renderAll, Block.nodesOf, Cursor.passAll_nil]
  | block :: rest, cursor => by
    rw [Block.renderAll, Block.nodesOf, Cursor.passAll_append, ← Block.cursor_render block cursor]
    exact Block.cursor_renderAll rest _

theorem ListItem.cursor_renderAll : ∀ (items : List ListItem) (cursor : Cursor),
    (ListItem.renderAll context cursor items).2 = cursor.passAll (ListItem.nodesOf items)
  | [], _ => by rw [ListItem.renderAll, ListItem.nodesOf, Cursor.passAll_nil]
  | .mk content checked :: rest, cursor => by
    rw [ListItem.renderAll, ListItem.nodesOf, Cursor.passAll_append,
      ← Block.cursor_renderAll content cursor]
    exact ListItem.cursor_renderAll rest _

end

end Render

end Quire
