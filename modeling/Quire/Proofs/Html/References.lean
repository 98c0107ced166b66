import Quire.Proofs.Discovery.Definitions
import Quire.Proofs.Html.Anchors

/-!
# Links by label

Every link by label that is shown becomes a link to the target of the first matching definition in
the document. Where there is none its content stands in a marked element, with one warning.
-/

namespace Quire

open Html

namespace Node

/-- The nodes directly below a node that are shown with it. The text for an image is plain, a marker
hides its text, and a table of contents without entries has no title. -/
def shownChildren (context : Context) : Node → List Node
  | .inline (.image ..) => []
  | .block (.heading depth content _) => if depth = 0 then [] else content.map .inline
  | .block (.tableOfContents title maxDepth) =>
    if contentsEntries context maxDepth = [] then [] else (title.getD []).map .inline
  | node => node.children

theorem mem_children_of_shown {context : Context} {node child : Node}
    (h : child ∈ node.shownChildren context) : child ∈ node.children := by
  unfold shownChildren at h
  split at h
  · contradiction
  · split at h
    · contradiction
    · exact h
  · split at h
    · contradiction
    · exact h
  · exact h

/-- A node and all below it that is shown, in preorder. -/
def shown (context : Context) (node : Node) : List Node :=
  node :: (node.shownChildren context).attach.flatMap fun child => child.1.shown context
termination_by node.nodes.length
decreasing_by exact length_nodes_of_mem_children (mem_children_of_shown child.2)

theorem shown_eq_cons (context : Context) (node : Node) :
    node.shown context = node :: (node.shownChildren context).flatMap (shown context) := by
  rw [shown]
  simp

end Node

def Document.shown (document : Document) (context : Context) : List Node :=
  document.roots.flatMap (Node.shown context)

namespace Html

/-- A link by label: what it shows, its label, and what the label stands for. -/
structure Reference where
  content : Fragment
  label : String
  target : Option LinkTarget

namespace Fragment

/-- A fragment that warns of no link. -/
def IsQuiet (fragment : Fragment) : Prop :=
  ∀ warning ∈ fragment.warnings, warning.kind ≠ .unresolvedReference

/-- A fragment is put together with links by label in this order. A text that can be opened holds
its two versions as attributes and shows one of them. -/
inductive Links : Fragment → List Reference → Prop where
  | none {fragment : Fragment} : fragment.IsQuiet → Links fragment []
  | resolved {content : Fragment} {references : List Reference} (label : String)
      (target : LinkTarget) : Links content references →
      Links (element "a" (⟨"href", some target.url⟩ :: Attribute.optional "title" target.title)
        content) (⟨content, label, some target⟩ :: references)
  | unresolved {content : Fragment} {references : List Reference} (label : String) :
      Links content references →
      Links (warn (.unresolvedReference label) ++
        element "span" [⟨"class", some "unresolved-reference"⟩] content)
        (⟨content, label, .none⟩ :: references)
  | append {a b : Fragment} {front back : List Reference} : Links a front → Links b back →
      Links (a ++ b) (front ++ back)
  | element {content : Fragment} {references : List Reference} (name : String)
      (attributes : List Attribute) : Links content references →
      Links (element name attributes content) references
  | collapse {full placeholder : Fragment} {front back : List Reference} (isOpen : Bool) :
      Links full front → Links placeholder back →
      Links (inlineCollapse full placeholder isOpen) (front ++ back)

section Warnings

variable (a b content : Fragment) (name : String) (attributes : List Attribute)

@[simp]
theorem warnings_append : (a ++ b).warnings = a.warnings ++ b.warnings := rfl

@[simp]
theorem warnings_ofPiece (piece : Piece) : (ofPiece piece).warnings = [] := rfl

@[simp]
theorem warnings_warn (warning : Warning) : (warn warning).warnings = [warning] := rfl

@[simp]
theorem warnings_warnIf (condition : Bool) (warning : Warning) :
    (warnIf condition warning).warnings = if condition then [warning] else [] := by
  cases condition <;> rfl

@[simp]
theorem warnings_element : (element name attributes content).warnings = content.warnings := by
  simp [element]

@[simp]
theorem warnings_inlineCollapse (full placeholder : Fragment) (isOpen : Bool) :
    (inlineCollapse full placeholder isOpen).warnings =
      full.warnings ++ placeholder.warnings := by
  simp [inlineCollapse]

end Warnings

namespace Links

variable {a b content : Fragment} {front back references : List Reference}

/-- Each link that stands for nothing gives one warning with its label, and the others give none. -/
theorem warnings_eq (h : content.Links references) :
    content.warnings.filter (·.kind = .unresolvedReference) =
      (references.filter (·.target.isNone)).map fun reference =>
        .unresolvedReference reference.label := by
  induction h with
  | none quiet => simpa [IsQuiet] using quiet
  | resolved label target _ ih => simpa using ih
  | unresolved label _ ih => simpa [Warning.unresolvedReference] using ih
  | append _ _ front back => simp [front, back]
  | element name attributes _ ih => simpa using ih
  | collapse isOpen _ _ front back => simp [front, back]

theorem of_no_warnings (h : content.warnings = []) : content.Links [] :=
  .none fun warning mem => by rw [h] at mem; contradiction

theorem before (h : b.Links references) (quiet : a.Links []) : (a ++ b).Links references :=
  quiet.append h

theorem after (h : a.Links references) (quiet : b.Links []) : (a ++ b).Links references := by
  have both := h.append quiet
  rwa [List.append_nil] at both

theorem lineElement (h : content.Links references) (name : String) (attributes : List Attribute) :
    (lineElement name attributes content).Links references :=
  (h.element name attributes).after (.of_no_warnings rfl)

theorem blockElement (h : content.Links references) (name : String)
    (attributes : List Attribute) : (blockElement name attributes content).Links references :=
  (h.before (.of_no_warnings rfl)).lineElement name attributes

end Links

end Fragment
end Html

/-- The link by label that a node is, given what labels stand for. -/
def Node.reference? (context : Context) (target? : String → Option LinkTarget) :
    Node → Option Reference
  | .inline (.referenceLink content label) =>
    some ⟨context.inlines content, label, target? label⟩
  | _ => none

def Node.references (context : Context) (nodes : List Node) : List Reference :=
  (nodes.flatMap (Node.shown context)).filterMap (Node.reference? context context.linkTarget?)

section References

variable (context : Context)

namespace Node

@[simp]
theorem references_append (a b : List Node) :
    references context (a ++ b) = references context a ++ references context b := by
  simp [references]

theorem references_link (content : List Inline) (label : String) :
    references context [.inline (.referenceLink content label)] =
      ⟨context.inlines content, label, context.linkTarget? label⟩ ::
        references context (content.map .inline) := by
  simp [references, shown_eq_cons context (.inline (.referenceLink content label)), reference?,
    shownChildren, children, inlineChildren]

end Node

/-- A node that is no link by label carries the links of what is shown below it. -/
theorem links_node {node : Node} {below : List Node} {fragment : Fragment}
    (plain : node.reference? context context.linkTarget? = none)
    (shown : node.shownChildren context = below)
    (h : fragment.Links (Node.references context below)) :
    fragment.Links (Node.references context [node]) := by
  have same : Node.references context [node] = Node.references context below := by
    simp [Node.references, Node.shown_eq_cons context node, plain, shown]
  rwa [same]

theorem quiet_emptySource (condition : Bool) (node : String) {content : Fragment}
    (h : content.warnings = []) :
    (Fragment.warnIf condition (.emptySource node) ++ content).Links [] := by
  refine .none fun warning mem => ?_
  rw [Fragment.warnings_append, Fragment.warnings_warnIf, h, List.append_nil] at mem
  split at mem
  · obtain rfl := List.mem_singleton.mp mem
    exact nofun
  · contradiction

theorem links_referenceLink {content : Fragment} {references : List Reference}
    (h : content.Links references) (target : Option LinkTarget) (label : String) :
    (referenceLink target label content).Links (⟨content, label, target⟩ :: references) := by
  cases target with
  | none => exact h.unresolved label
  | some target => exact h.resolved label target

mutual

/-- Running text carries the links in it that are shown. -/
theorem Inline.links_html : ∀ i : Inline,
    (i.html context.linkTarget?).Links (Node.references context [.inline i])
  | .emphasis content | .strong content | .strikethrough content | .link content _
  | .textTransform _ content =>
    links_node context rfl rfl ((Inline.links_htmlOf content).element _ _)
  | .referenceLink content label => by
    rw [Node.references_link]
    exact links_referenceLink (Inline.links_htmlOf content) _ label
  | .inlineCollapse full placeholder isOpen => by
    have both := (Inline.links_htmlOf full).collapse isOpen (Inline.links_htmlOf placeholder)
    rw [← Node.references_append, ← List.map_append] at both
    exact links_node context rfl rfl both
  | .mathSpan _ => links_node context rfl rfl (quiet_emptySource _ _ rfl)
  | .codeSpan _ color => by
    cases color <;> exact links_node context rfl rfl (.of_no_warnings rfl)
  | .whitespace width height => by
    cases width <;> cases height <;> exact links_node context rfl rfl (.of_no_warnings rfl)
  | .text _ | .lineBreak | .image .. | .pageCounter _ =>
    links_node context rfl rfl (.of_no_warnings rfl)

theorem Inline.links_htmlOf : ∀ content : List Inline,
    (Inline.htmlOf context.linkTarget? content).Links
      (Node.references context (content.map .inline))
  | [] => .of_no_warnings rfl
  | i :: rest => by
    rw [Inline.htmlOf, List.map_cons, ← List.singleton_append, Node.references_append]
    exact (Inline.links_html i).append (Inline.links_htmlOf rest)

end

theorem links_inlines (content : List Inline) :
    (context.inlines content).Links (Node.references context (content.map .inline)) :=
  Inline.links_htmlOf context content

theorem links_optional {wrap : Option Fragment → Fragment} (absent : (wrap none).Links [])
    (present : ∀ {content references}, content.Links references →
      (wrap (some content)).Links references) (content : Option (List Inline)) :
    (wrap (content.map context.inlines)).Links
      (Node.references context ((content.getD []).map .inline)) := by
  cases content with
  | none => exact absent
  | some content => exact present (links_inlines context content)

theorem links_attribution (source : Option (List Inline)) :
    (attribution (source.map context.inlines)).Links
      (Node.references context ((source.getD []).map .inline)) :=
  links_optional context (.of_no_warnings rfl) (fun h => h.lineElement _ _) source

theorem links_calloutHeader (padding : Option String) (title : Option (List Inline)) :
    (calloutHeader padding (title.map context.inlines)).Links
      (Node.references context ((title.getD []).map .inline)) :=
  links_optional context (.of_no_warnings rfl) (fun h => (h.element _ _).lineElement _ _) title

theorem links_listItem {content : Fragment} {references : List Reference}
    (h : content.Links references) (checked : Option Bool) :
    (listItem checked content).Links references := by
  cases checked with
  | none => exact h.lineElement _ _
  | some checked =>
    exact ((h.before (.of_no_warnings rfl)).after (.of_no_warnings rfl)).after (.of_no_warnings rfl)

theorem quiet_caption (tag kind : String) (label : Option String) (position : CaptionPosition)
    (content : Option String) : (caption context tag kind label position content).Links [] := by
  cases content <;> exact .of_no_warnings rfl

theorem links_figure {child : Fragment} {references : List Reference} (h : child.Links references)
    (label caption : Option String) : (figure context label caption child).Links references := by
  have quiet := fun position => quiet_caption context "figcaption" "figure" label position caption
  rw [figure]
  cases context.document.layout.captionPositions.figures with
  | top => exact (h.before (quiet _)).blockElement _ _
  | bottom => exact (h.after (quiet _)).blockElement _ _

theorem links_tableRow (t : Table) (tag : String) (cells : List (List Inline)) :
    (tableRow context t tag cells).Links
      (Node.references context (cells.flatten.map .inline)) := by
  have row : ∀ column, (tableCells context t tag column cells).Links
      (Node.references context (cells.flatten.map .inline)) := by
    induction cells with
    | nil => exact fun _ => .of_no_warnings rfl
    | cons cell rest ih =>
      intro column
      rw [List.flatten_cons, List.map_append, Node.references_append]
      exact ((links_inlines context cell).element _ _).append (ih (column + 1))
  exact (row 0).lineElement _ _

theorem links_table (label : Option String) (t : Table) :
    (Html.table context label t).Links
      (Node.references context (t.cells.flatten.map .inline)) := by
  have rows : ∀ rows : List (List (List Inline)),
      (Fragment.concat (rows.map (tableRow context t "td"))).Links
        (Node.references context (rows.flatten.flatten.map .inline)) := by
    intro rows
    induction rows with
    | nil => exact .of_no_warnings rfl
    | cons row rest ih =>
      rw [List.flatten_cons, List.flatten_append, List.map_append, Node.references_append]
      exact (links_tableRow context t "td" row).append ih
  rw [Table.cells, List.flatten_append, List.map_append, Node.references_append]
  have head := (links_tableRow context t "th" t.header).blockElement "thead" []
  have quiet := quiet_caption context "caption" "table" label
    context.document.layout.captionPositions.tables t.caption
  exact ((head.before quiet).append ((rows t.rows).blockElement _ _)).blockElement _ _

theorem links_tableOfContents (title : Option (List Inline)) (maxDepth : UInt8) :
    (leafBlock context (.tableOfContents title maxDepth)).Links
      (Node.references context [.block (.tableOfContents title maxDepth)]) := by
  refine links_node context rfl rfl ?_
  simp only [leafBlock, tableOfContents, Node.shownChildren]
  cases contentsEntries context maxDepth with
  | nil => exact .of_no_warnings rfl
  | cons entry rest =>
    have heading : (contentsTitle context title).Links
        (Node.references context ((title.getD []).map .inline)) := by
      cases title with
      | some title => exact links_inlines context title
      | none =>
        rw [contentsTitle]
        cases context.localize "tableofcontents" <;> exact .of_no_warnings rfl
    exact (heading.lineElement _ _).after (.of_no_warnings rfl)

theorem links_renderHeading (cursor : Cursor) (depth : UInt8) (content : List Inline)
    (customId : Option String) :
    (renderHeading context cursor depth content customId).1.Links
      (Node.references context [.block (.heading depth content customId)]) := by
  refine links_node context rfl rfl ?_
  rw [Node.shownChildren]
  by_cases invisible : depth = 0
  · subst invisible
    rw [renderHeading_marker, if_pos rfl]
    exact .of_no_warnings rfl
  · rw [renderHeading_visible context cursor invisible, if_neg invisible]
    have visible := (links_inlines context content).lineElement (headingTag depth)
      (Attribute.optional "id" (context.headingId? cursor customId) ++
        Attribute.optional "data-location" (context.locationLabel .heading cursor.headings))
    exact visible.before (by split <;> exact .of_no_warnings rfl)

mutual

/-- A block carries the links in it that are shown, wherever it is rendered. -/
theorem Block.links_render : ∀ (block : Block) (cursor : Cursor),
    (block.render context cursor).1.Links (Node.references context [.block block])
  | .heading depth content customId, cursor => links_renderHeading context cursor depth content _
  | .blockQuote kind source content, cursor => by
    have inner := (Block.links_renderAll content cursor).append (links_attribution context source)
    rw [← Node.references_append] at inner
    exact links_node context rfl rfl (inner.blockElement _ _)
  | .orderedList start items, cursor =>
    links_node context rfl rfl ((ListItem.links_renderAll items cursor).blockElement _ _)
  | .unorderedList items, cursor =>
    links_node context rfl rfl ((ListItem.links_renderAll items cursor).blockElement _ _)
  | .table t, cursor => links_node context rfl rfl (links_table context _ t)
  | .figure child caption, cursor =>
    have inner := Block.links_render child cursor.passFigure
    links_node context rfl rfl (links_figure context inner _ caption)
  | .container children style, cursor =>
    links_node context rfl rfl ((Block.links_renderAll children cursor).blockElement _ _)
  | .callout kind title padding children, cursor => by
    have content := (links_calloutHeader context padding title).append
      ((Block.links_renderAll children cursor).blockElement "div"
        (⟨"class", some "box-content"⟩ :: Attribute.style [("padding", padding)]))
    rw [← Node.references_append] at content
    exact links_node context rfl rfl (content.blockElement _ _)
  | .collapse title isOpen children, cursor => by
    have content := ((links_inlines context title).lineElement "summary" []).append
      (Block.links_renderAll children cursor)
    rw [← Node.references_append] at content
    exact links_node context rfl rfl (content.lineElement _ _)
  | .fullColumnSpan children, cursor | .pageMargin _ children, cursor =>
    links_node context rfl rfl ((Block.links_renderAll children cursor).blockElement _ _)
  | .numbered _ children, cursor | .expanded children, cursor =>
    links_node context rfl rfl (Block.links_renderAll children cursor)
  | .tableOfContents title maxDepth, _ => links_tableOfContents context title maxDepth
  | .paragraph content, _ =>
    links_node context rfl rfl ((links_inlines context content).lineElement _ _)
  | .math _, _ | .mermaidDiagram _, _ | .tikzDiagram _, _ =>
    links_node context rfl rfl (quiet_emptySource _ _ rfl)
  | .codeBlock .., _ | .horizontalRule, _ | .html _, _ | .pageBreak, _ | .linkDefinition _, _
  | .slides _, _ => links_node context rfl rfl (.of_no_warnings rfl)

theorem Block.links_renderAll : ∀ (blocks : List Block) (cursor : Cursor),
    (Block.renderAll context cursor blocks).1.Links
      (Node.references context (blocks.map .block))
  | [], _ => .of_no_warnings rfl
  | block :: rest, cursor => by
    rw [Block.renderAll, List.map_cons, ← List.singleton_append, Node.references_append]
    exact (Block.links_render block cursor).append (Block.links_renderAll rest _)

theorem ListItem.links_renderAll : ∀ (items : List ListItem) (cursor : Cursor),
    (ListItem.renderAll context cursor items).1.Links
      (Node.references context ((items.flatMap ListItem.content).map .block))
  | [], _ => .of_no_warnings rfl
  | .mk content checked :: rest, cursor => by
    have loose := Block.links_renderAll content cursor
    rw [ListItem.renderAll, List.flatMap_cons, List.map_append, Node.references_append]
    refine (links_listItem ?_ checked).append (ListItem.links_renderAll rest _)
    cases tight : tightContent? content with
    | none => exact loose
    | some shown =>
      -- the only paragraph of an item has the links of its text
      obtain rfl := eq_of_tightContent? tight
      exact links_node context rfl rfl (links_inlines context shown)

end

end References

/-- Every link by label that is shown, at any place, is written as a link to the target of the first
definition in the document whose label matches. Without one it is written as a marked element, and
each such link gives exactly one warning, with its own label. -/
theorem Document.reference_links (document : Document) (context : Context) (cursor : Cursor) :
    let found := context.discover document
    let body := (document.render found cursor).1
    let references :=
      (document.shown found).filterMap (Node.reference? found document.target?)
    body.Links references ∧
      body.warnings.filter (·.kind = .unresolvedReference) =
        (references.filter (·.target.isNone)).map fun reference =>
          .unresolvedReference reference.label := by
  intro found body references
  have all := Block.links_renderAll found document.blocks cursor
  rw [Node.references, context.linkTarget?_discover document] at all
  exact ⟨all, all.warnings_eq⟩

end Quire
