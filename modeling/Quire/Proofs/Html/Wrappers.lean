import Quire.Proofs.Discovery.Wrappers
import Quire.Proofs.Html.Warnings

/-!
# Wrappers in HTML

Blocks without their wrappers are rendered alike, but for the items of lists: a paragraph that
comes to stand alone in its item loses its element.
-/

namespace Quire

open Html

/-- An item whose only block is a paragraph, which is shown without its element. -/
def ListItem.isTight (item : ListItem) : Bool := (tightContent? item.content).isSome

namespace Node

def items : Node → List ListItem
  | .block (.orderedList _ items) => items
  | .block (.unorderedList items) => items
  | _ => []

/-- How many items of the lists in a row of nodes are tight. -/
def tightItems (nodes : List Node) : Nat := (nodes.flatMap items).countP ListItem.isTight

theorem tightItems_append (a b : List Node) :
    tightItems (a ++ b) = tightItems a + tightItems b := by
  rw [tightItems, List.flatMap_append, List.countP_append]
  rfl

theorem tightItems_cons (node : Node) (rest : List Node) :
    tightItems (node :: rest) = node.items.countP ListItem.isTight + tightItems rest := by
  rw [tightItems, List.flatMap_cons, List.countP_append]
  rfl

theorem tightItems_cons_other {node : Node} (h : node.items = []) (rest : List Node) :
    tightItems (node :: rest) = tightItems rest := by
  rw [tightItems_cons, h, List.countP_nil, Nat.zero_add]

end Node

def ListItem.tightItems (items : List ListItem) : Nat :=
  items.countP isTight + Node.tightItems (nodesOf items)

theorem ListItem.tightItems_cons (content : List Block) (checked : Option Bool)
    (rest : List ListItem) :
    tightItems (mk content checked :: rest) =
      (Node.tightItems (Block.nodesOf content) + if (mk content checked).isTight then 1 else 0) +
        tightItems rest := by
  rw [tightItems, nodesOf, List.countP_cons, Node.tightItems_append, tightItems]
  omega

def Document.tightItems (document : Document) : Nat := Node.tightItems document.nodes

namespace Html.Fragment

/-- Markup before and after some paragraphs lost their element, with the numbers of tight items then
and now. Each element takes eight characters: two tags and a line break. -/
structure Tightens (loose tight : Nat) (before after : Fragment) : Prop where
  le : loose ≤ tight
  warnings : after.warnings = before.warnings
  pieces : after.pieces.Sublist before.pieces
  length : before.write.length + 8 * loose = after.write.length + 8 * tight
  same : loose = tight → before = after

namespace Tightens

variable {k l m n : Nat} {a b c d : Fragment}

theorem refl (n : Nat) (a : Fragment) : Tightens n n a a :=
  ⟨Nat.le_refl n, rfl, .refl _, rfl, fun _ => rfl⟩

theorem trans (h : Tightens k m a b) (later : Tightens m n b c) : Tightens k n a c where
  le := Nat.le_trans h.le later.le
  warnings := later.warnings.trans h.warnings
  pieces := later.pieces.trans h.pieces
  length := h.length.trans later.length
  same eq := by
    have first : k = m := Nat.le_antisymm h.le (eq ▸ later.le)
    rw [h.same first, later.same (first ▸ eq)]

theorem append (h : Tightens k l a b) (later : Tightens m n c d) :
    Tightens (k + m) (l + n) (a ++ c) (b ++ d) where
  le := Nat.add_le_add h.le later.le
  warnings := by rw [warnings_append, warnings_append, h.warnings, later.warnings]
  pieces := by
    rw [pieces_append, pieces_append]
    exact h.pieces.append later.pieces
  length := by
    have first := h.length
    have second := later.length
    rw [write_append, write_append, String.length_append, String.length_append]
    omega
  same eq := by
    have first := h.le
    have second := later.le
    rw [h.same (by omega), later.same (by omega)]

theorem behind (h : Tightens m n a b) (front : Fragment) :
    Tightens m n (front ++ a) (front ++ b) := by
  have all := (refl 0 front).append h
  rwa [Nat.zero_add, Nat.zero_add] at all

theorem before (h : Tightens m n a b) (back : Fragment) :
    Tightens m n (a ++ back) (b ++ back) := h.append (refl 0 back)

theorem lineElement (h : Tightens m n a b) (name : String) (attributes : List Attribute) :
    Tightens m n (.lineElement name attributes a) (.lineElement name attributes b) :=
  ((h.behind _).before _).before _

theorem blockElement (h : Tightens m n a b) (name : String) (attributes : List Attribute) :
    Tightens m n (.blockElement name attributes a) (.blockElement name attributes b) :=
  (h.behind _).lineElement name attributes

theorem listItem (h : Tightens m n a b) (checked : Option Bool) :
    Tightens m n (Html.listItem checked a) (Html.listItem checked b) := by
  cases checked with
  | none => exact h.lineElement "li" []
  | some checked => exact ((h.behind _).before _).before _

theorem figure (h : Tightens m n a b) (context : Context) (label caption : Option String) :
    Tightens m n (Html.figure context label caption a) (Html.figure context label caption b) := by
  refine blockElement ?_ _ _
  cases context.document.layout.captionPositions.figures with
  | top => exact h.behind _
  | bottom => exact h.before _

theorem length_paragraph (content : Fragment) :
    (Fragment.lineElement "p" [] content).write.length = content.write.length + 8 := by
  have tags : (Piece.writeAll [.opening "p" []]).length = 3 ∧
      (Piece.writeAll [.closing "p", .text "\n"]).length = 5 := by decide
  rw [write_lineElement, String.length_append, String.length_append, tags.1, tags.2]
  omega

/-- A paragraph that loses its element. -/
theorem paragraph (h : Tightens m n a (.lineElement "p" [] b)) : Tightens m (n + 1) a b where
  le := Nat.le_succ_of_le h.le
  warnings := (warnings_lineElement b "p" []).symm.trans h.warnings
  pieces := by
    refine List.Sublist.trans ?_ h.pieces
    rw [pieces_lineElement]
    exact (List.sublist_append_left _ _).cons _
  length := by
    have long := h.length
    rw [length_paragraph] at long
    omega
  same eq := absurd h.le (by omega)

end Tightens

end Html.Fragment

theorem Cursor.passAll_noticed (cursor : Cursor) (nodes : List Node) :
    cursor.passAll (Node.noticed nodes) = cursor.passAll nodes := by
  induction nodes generalizing cursor with
  | nil => rfl
  | cons node rest ih =>
    rw [Cursor.passAll_cons, ← ih]
    cases node with
    | inline i => rfl
    | block b => cases b <;> rfl

theorem Cursor.passAll_eq_of_noticed (cursor : Cursor) {nodes others : List Node}
    (h : Node.noticed nodes = Node.noticed others) :
    cursor.passAll nodes = cursor.passAll others := by
  rw [← passAll_noticed, h, passAll_noticed]

section Render

variable (context : Context)

theorem Block.renderAll_cons (block : Block) (rest : List Block) (cursor : Cursor) :
    (Block.renderAll context cursor (block :: rest)).1 = (block.render context cursor).1 ++
      (Block.renderAll context (cursor.passAll block.nodes) rest).1 := by
  rw [Block.renderAll, ← Block.cursor_render context block cursor]

theorem Block.renderAll_paragraph (content : List Inline) (cursor : Cursor) :
    (Block.renderAll context cursor [.paragraph content]).1 =
      .lineElement "p" [] (context.inlines content) := by
  rw [renderAll_cons]
  exact congrArg₂ Fragment.mk (List.append_nil _) (List.append_nil _)

theorem Block.renderAll_append (a b : List Block) (cursor : Cursor) :
    (Block.renderAll context cursor (a ++ b)).1 = (Block.renderAll context cursor a).1 ++
      (Block.renderAll context (cursor.passAll (Block.nodesOf a)) b).1 := by
  induction a generalizing cursor with
  | nil => rfl
  | cons block rest ih =>
    rw [List.cons_append, renderAll_cons, renderAll_cons, ih, Fragment.append_assoc,
      Block.nodesOf, Cursor.passAll_append]

/-- What an item shows of its blocks, given the markup of them all. -/
def ListItem.shownContent (content : List Block) (loose : Fragment) : Fragment :=
  match tightContent? content with
  | some tight => context.inlines tight
  | none => loose

theorem ListItem.shownContent_loose {content : List Block} (h : tightContent? content = none)
    (loose : Fragment) : shownContent context content loose = loose := by
  rw [shownContent, h]

theorem ListItem.renderAll_cons (content : List Block) (checked : Option Bool)
    (rest : List ListItem) (cursor : Cursor) :
    (ListItem.renderAll context cursor (.mk content checked :: rest)).1 =
      listItem checked
          (shownContent context content (Block.renderAll context cursor content).1) ++
        (ListItem.renderAll context (cursor.passAll (Block.nodesOf content)) rest).1 := by
  rw [ListItem.renderAll, ← Block.cursor_renderAll context content cursor]
  rfl

/-- An item with a wrapper in it is not tight. -/
theorem Block.UnwrapsOne.tightContent?_eq_none {content shown : List Block}
    (h : Block.UnwrapsOne content shown) : tightContent? content = none := by
  cases tight : tightContent? content with
  | none => rfl
  | some text =>
    obtain rfl := eq_of_tightContent? tight
    cases h with
    | head _ h | tail _ h => cases h

/-- An item whose blocks lose a wrapper shows them as before or, if a paragraph comes to stand
alone, its text. -/
theorem Block.UnwrapsOne.tightens_shownContent {m n : Nat} {content shown : List Block}
    (h : Block.UnwrapsOne content shown) (checked : Option Bool) {cursor : Cursor}
    (inside : Fragment.Tightens m n (Block.renderAll context cursor content).1
      (Block.renderAll context cursor shown).1) :
    Fragment.Tightens (m + if (ListItem.mk content checked).isTight then 1 else 0)
      (n + if (ListItem.mk shown checked).isTight then 1 else 0)
      (ListItem.shownContent context content (Block.renderAll context cursor content).1)
      (ListItem.shownContent context shown (Block.renderAll context cursor shown).1) := by
  have loose : (ListItem.mk content checked).isTight = false :=
    congrArg Option.isSome h.tightContent?_eq_none
  rw [loose, ListItem.shownContent_loose context h.tightContent?_eq_none]
  cases alone : tightContent? shown with
  | none =>
    have after : (ListItem.mk shown checked).isTight = false := congrArg Option.isSome alone
    rw [after, ListItem.shownContent_loose context alone]
    exact inside
  | some text =>
    obtain rfl := eq_of_tightContent? alone
    rw [Block.renderAll_paragraph] at inside
    exact inside.paragraph

mutual

theorem Block.Unwraps.tightens {block shown : Block} (cursor : Cursor) :
    block.Unwraps shown → Fragment.Tightens (Node.tightItems block.nodes)
      (Node.tightItems shown.nodes) (block.render context cursor).1 (shown.render context cursor).1
  | .blockQuote _ _ h => by
    rw [Block.nodes, Block.nodes, Node.tightItems_cons_other rfl, Node.tightItems_cons_other rfl,
      Node.tightItems_append, Node.tightItems_append, Block.render, Block.render]
    exact ((h.tightens cursor).append (.refl _ _)).blockElement _ _
  | .orderedList _ h | .unorderedList h => by
    rw [Block.nodes, Block.nodes, Node.tightItems_cons, Node.tightItems_cons, Block.render,
      Block.render]
    exact (h.tightens cursor).blockElement _ _
  | .figure _ h => by
    rw [Block.nodes, Block.nodes, Node.tightItems_cons_other rfl, Node.tightItems_cons_other rfl,
      Block.render, Block.render]
    exact (h.tightens _).figure context _ _
  | .container _ h | .fullColumnSpan h | .pageMargin _ h => by
    rw [Block.nodes, Block.nodes, Node.tightItems_cons_other rfl, Node.tightItems_cons_other rfl,
      Block.render, Block.render]
    exact (h.tightens cursor).blockElement _ _
  | .callout _ _ _ h => by
    rw [Block.nodes, Block.nodes, Node.tightItems_cons_other rfl, Node.tightItems_cons_other rfl,
      Node.tightItems_append, Node.tightItems_append, Block.render, Block.render]
    exact ((Fragment.Tightens.refl _ _).append ((h.tightens cursor).blockElement _ _)).blockElement
      _ _
  | .collapse _ _ h => by
    rw [Block.nodes, Block.nodes, Node.tightItems_cons_other rfl, Node.tightItems_cons_other rfl,
      Node.tightItems_append, Node.tightItems_append, Block.render, Block.render]
    exact ((Fragment.Tightens.refl _ _).append (h.tightens cursor)).lineElement _ _
  | .numbered _ h | .expanded h => by
    rw [Block.nodes, Block.nodes, Node.tightItems_cons_other rfl, Node.tightItems_cons_other rfl,
      Block.render, Block.render]
    exact h.tightens cursor

theorem Block.UnwrapsOne.tightens {blocks shown : List Block} (cursor : Cursor) :
    Block.UnwrapsOne blocks shown → Fragment.Tightens (Node.tightItems (Block.nodesOf blocks))
      (Node.tightItems (Block.nodesOf shown)) (Block.renderAll context cursor blocks).1
      (Block.renderAll context cursor shown).1
  | .numbered _ children rest | .expanded children rest => by
    have same := Block.renderAll_append context children rest cursor
    rw [Block.nodesOf, Block.nodes, List.cons_append, Node.tightItems_cons_other rfl,
      Block.nodesOf_append, Block.renderAll_cons, Block.render, same]
    exact .refl _ _
  | @Block.UnwrapsOne.head block shown rest h => by
    have moved : cursor.passAll block.nodes = cursor.passAll shown.nodes :=
      cursor.passAll_eq_of_noticed h.noticed
    rw [Block.nodesOf, Block.nodesOf, Node.tightItems_append, Node.tightItems_append,
      Block.renderAll_cons, Block.renderAll_cons, moved]
    exact (h.tightens cursor).append (.refl _ _)
  | .tail _ h => by
    rw [Block.nodesOf, Block.nodesOf, Node.tightItems_append, Node.tightItems_append,
      Block.renderAll_cons, Block.renderAll_cons]
    exact (Fragment.Tightens.refl _ _).append (h.tightens _)

theorem ListItem.UnwrapsOne.tightens {items shown : List ListItem} (cursor : Cursor) :
    ListItem.UnwrapsOne items shown → Fragment.Tightens (ListItem.tightItems items)
      (ListItem.tightItems shown) (ListItem.renderAll context cursor items).1
      (ListItem.renderAll context cursor shown).1
  | @ListItem.UnwrapsOne.head content shown checked rest h => by
    have moved : cursor.passAll (Block.nodesOf content) = cursor.passAll (Block.nodesOf shown) :=
      cursor.passAll_eq_of_noticed h.noticed
    have item := h.tightens_shownContent context checked (h.tightens cursor)
    rw [ListItem.tightItems_cons, ListItem.tightItems_cons, ListItem.renderAll_cons,
      ListItem.renderAll_cons, moved]
    exact (item.listItem checked).append (.refl _ _)
  | .tail (.mk content checked) h => by
    rw [ListItem.tightItems_cons, ListItem.tightItems_cons, ListItem.renderAll_cons,
      ListItem.renderAll_cons]
    exact (Fragment.Tightens.refl _ _).append (h.tightens _)

end

end Render

theorem Document.Unwraps.tightens {document shown : Document} (h : document.Unwraps shown)
    (context : Context) (cursor : Cursor) :
    Fragment.Tightens document.tightItems shown.tightItems
      (document.render context cursor).1 (shown.render context cursor).1 := by
  obtain ⟨blocks⟩ := document
  obtain ⟨others⟩ := shown
  change Relation.ReflTransGen Block.UnwrapsOne blocks others at h
  induction h with
  | refl => exact .refl _ _
  | tail _ step before => exact before.trans (step.tightens context cursor)

/-- Wrappers replaced by their children leave the index, the cursor and the warnings of a document
as they were. The body only loses markup, and what it loses are the elements of paragraphs that
come to stand alone in their items. Without such an item it stays as it was. -/
theorem Document.unwrapped {document shown : Document} (h : document.Unwraps shown)
    (context : Context) (cursor : Cursor) :
    document.index = shown.index ∧
      let before := document.render (context.discover document) cursor
      let after := shown.render (context.discover shown) cursor
      before.2 = after.2 ∧
      before.1.warnings = after.1.warnings ∧
      after.1.pieces.Sublist before.1.pieces ∧
      document.tightItems ≤ shown.tightItems ∧
      before.1.write.length =
        after.1.write.length + 8 * (shown.tightItems - document.tightItems) ∧
      (before.1.write = after.1.write ↔ document.tightItems = shown.tightItems) := by
  have index : document.index = shown.index := h.index
  have discovered : context.discover document = context.discover shown := by
    rw [Context.discover, Context.discover, index]
  have tightens := h.tightens (context.discover shown) cursor
  have more := tightens.le
  have long := tightens.length
  refine ⟨index, ?_⟩
  rw [discovered]
  refine ⟨?_, tightens.warnings.symm, tightens.pieces, more, by omega, ?_, ?_⟩
  · rw [Document.render, Document.render, Block.cursor_renderAll, Block.cursor_renderAll]
    exact cursor.passAll_eq_of_noticed h.noticed
  · intro same
    rw [same] at long
    omega
  · intro none
    rw [tightens.same none]

theorem unwrapped_quote :
    let quote (blocks : List Block) : Document := ⟨[.blockQuote none none blocks]⟩
    let document := quote [.expanded [.numbered "n" [.heading 1 [.text "a"] none], .pageBreak]]
    let shown := quote [.heading 1 [.text "a"] none, .pageBreak]
    document.Unwraps shown ∧ ∃ context, Context.ofConfig {} = .ok context ∧
      document.index = shown.index ∧
      (document.render (context.discover document) {}).1.write =
        (shown.render (context.discover shown) {}).1.write := by
  intro quote document shown
  have h : document.Unwraps shown :=
    .tail (.tail .refl (.head _ (.blockQuote none none (.expanded _ _))))
      (.head _ (.blockQuote none none (.numbered _ _ _)))
  have alike (context : Context) : document.index = shown.index ∧
      (document.render (context.discover document) {}).1.write =
        (shown.render (context.discover shown) {}).1.write := by
    obtain ⟨index, -, -, -, -, -, body⟩ := Document.unwrapped h context {}
    exact ⟨index, body.mpr (by decide)⟩
  exact ⟨h, _, rfl, alike _⟩

/-- A paragraph with a number of its own keeps its element in an item, where the same paragraph
without the number is shown without it. -/
theorem numbered_paragraph_loose :
    let item (blocks : List Block) : Document := ⟨[.unorderedList [.mk blocks none]]⟩
    let document := item [.numbered "n" [.paragraph [.text "a"]]]
    let shown := item [.paragraph [.text "a"]]
    document.Unwraps shown ∧ ∃ context, Context.ofConfig {} = .ok context ∧
      (document.render (context.discover document) {}).1.write =
        "<ul>\n<li><p>a</p>\n</li>\n</ul>\n" ∧
      (shown.render (context.discover shown) {}).1.write = "<ul>\n<li>a</li>\n</ul>\n" := by
  intro item document shown
  have h : document.Unwraps shown :=
    .tail .refl (.head _ (.unorderedList (.head _ _ (.numbered "n" _ _))))
  exact ⟨h, _, rfl, by decide, by decide⟩

end Quire
