import Quire.Html.Block
import Quire.Proofs.Discovery.Presence
import Quire.Proofs.Html.Pieces

/-!
# Bodies are well-formed markup

Whatever a document without raw markup holds, and whatever its render looks things up in, the body
is runs of text and tags, and the tags are nested.
-/

namespace Quire

open Html Html.Fragment

/-- No block of a document is markup by its author. -/
def Document.HasNoMarkup (document : Document) : Prop :=
  ∀ markup, ¬ document.Contains (.block (.html markup))

def NoMarkup (nodes : List Node) : Prop := ∀ markup, .block (.html markup) ∉ nodes

namespace NoMarkup

variable {a b : List Node} {node : Node}

theorem tail (h : NoMarkup (node :: a)) : NoMarkup a := fun markup mem =>
  h markup (List.mem_cons_of_mem _ mem)

theorem left (h : NoMarkup (a ++ b)) : NoMarkup a := fun markup mem =>
  h markup (List.mem_append_left _ mem)

theorem right (h : NoMarkup (a ++ b)) : NoMarkup b := fun markup mem =>
  h markup (List.mem_append_right _ mem)

end NoMarkup

theorem Document.hasNoMarkup_iff {document : Document} :
    document.HasNoMarkup ↔ NoMarkup document.nodes := by
  simp only [HasNoMarkup, NoMarkup, mem_nodes_iff_contains]

def Node.isMarkup : Node → Bool
  | .block (.html _) => true
  | _ => false

theorem Node.isMarkup_iff {node : Node} :
    node.isMarkup = true ↔ ∃ markup, node = .block (.html markup) := by
  constructor
  · unfold isMarkup
    split
    · exact fun _ => ⟨_, rfl⟩
    · exact fun h => absurd h Bool.false_ne_true
  · rintro ⟨markup, rfl⟩
    rfl

instance (document : Document) : Decidable document.HasNoMarkup :=
  decidable_of_iff (document.nodes.any Node.isMarkup = false) (by
    rw [Document.hasNoMarkup_iff, NoMarkup, List.any_eq_false]
    constructor
    · intro none markup mem
      exact none _ mem (Node.isMarkup_iff.mpr ⟨markup, rfl⟩)
    · intro none node mem markup
      obtain ⟨text, rfl⟩ := Node.isMarkup_iff.mp markup
      exact none text mem)

section Inlines

theorem wellFormed_colorPreview (color : Option String) : WellFormed (colorPreview color) := by
  cases color with
  | none => exact .empty
  | some color => exact WellFormed.element .empty (by simp [isName, isNameChar]) rfl

theorem wellFormed_whitespace (width height : Option String) :
    WellFormed (whitespace width height) := by
  unfold whitespace
  split
  · refine WellFormed.element (.of_texts (by simp [Piece.tag?]) fun piece mem => ?_) rfl rfl
    obtain rfl := List.mem_singleton.mp mem
    exact List.all_eq_true.mp (by decide : isText _ = true)
  · exact WellFormed.element .empty (by simp) rfl

theorem LinkTarget.namesLawful_attributes (target : LinkTarget) :
    namesLawful target.attributes = true := by
  simp [LinkTarget.attributes, isName, isNameChar]

theorem wellFormed_referenceLink (target : Option LinkTarget) (label : String)
    {content : Fragment} (h : content.WellFormed) :
    WellFormed (referenceLink target label content) := by
  cases target with
  | some target => exact h.element target.namesLawful_attributes rfl
  | none =>
    exact (WellFormed.of_texts (by simp) (by simp)).append
      (h.element (by simp [isName, isNameChar]) rfl)

theorem wellFormed_inlineCollapse {full placeholder : Fragment} (hf : full.WellFormed)
    (hp : placeholder.WellFormed) (isOpen : Bool) :
    WellFormed (inlineCollapse full placeholder isOpen) := by
  have shown : ∀ f : Fragment, f.WellFormed → WellFormed { pieces := f.pieces } :=
    fun f h => ⟨h.lawful, h.nested⟩
  refine (WellFormed.of_texts (by simp) (by simp)).append (WellFormed.element ?_ ?_ rfl)
  · cases isOpen with
    | true => exact shown full hf
    | false => exact shown placeholder hp
  · simp [isName, isNameChar]

variable (link? : String → Option LinkTarget)

mutual

theorem Inline.wellFormed : ∀ i : Inline, WellFormed (i.html link?)
  | .text content => WellFormed.text content
  | .codeSpan content color => by
    have code : WellFormed (.element "code" [] (.text content)) :=
      (WellFormed.text content).element rfl rfl
    rw [Inline.html]
    exact (code.append (wellFormed_colorPreview color)).element (by simp [isName, isNameChar]) rfl
  | .emphasis content => by
    rw [Inline.html]
    exact (Inline.allWellFormed content).element rfl rfl
  | .strong content => by
    rw [Inline.html]
    exact (Inline.allWellFormed content).element rfl rfl
  | .strikethrough content => by
    rw [Inline.html]
    exact (Inline.allWellFormed content).element rfl rfl
  | .lineBreak => by
    rw [Inline.html]
    exact (WellFormed.selfClosing rfl rfl rfl).append .lineBreak
  | .link content target => by
    rw [Inline.html]
    exact (Inline.allWellFormed content).element target.namesLawful_attributes rfl
  | .referenceLink content label => by
    rw [Inline.html]
    exact wellFormed_referenceLink _ label (Inline.allWellFormed content)
  | .image url alt title width height => by
    rw [Inline.html]
    exact WellFormed.selfClosing (by simp [imageAttributes, isName, isNameChar]) rfl rfl
  | .mathSpan expression => by
    rw [Inline.html]
    exact (WellFormed.warnIf _ _).append ((WellFormed.text expression).element rfl rfl)
  | .textTransform look content => by
    rw [Inline.html]
    exact (Inline.allWellFormed content).element (by simp [TextLook.attributes]) rfl
  | .whitespace width height => by
    rw [Inline.html]
    exact wellFormed_whitespace width height
  | .inlineCollapse full placeholder isOpen => by
    rw [Inline.html]
    exact wellFormed_inlineCollapse (Inline.allWellFormed full) (Inline.allWellFormed placeholder)
      isOpen
  | .pageCounter target => by
    rw [Inline.html]
    exact (WellFormed.text "-").element (by simp [isName, isNameChar]) rfl

theorem Inline.allWellFormed : ∀ content : List Inline, WellFormed (Inline.htmlOf link? content)
  | [] => WellFormed.empty
  | i :: rest => by
    rw [Inline.htmlOf]
    exact (Inline.wellFormed i).append (Inline.allWellFormed rest)

end

end Inlines

section Contents

/-- What is open inside lists that hold an item each. -/
def openLists (count : Nat) : List String := (List.replicate count ["li", "ol"]).flatten

theorem openLists_succ (count : Nat) : openLists (count + 1) = "li" :: "ol" :: openLists count := by
  simp [openLists, List.replicate_succ]

theorem openLists_add (m n : Nat) : openLists (m + n) = openLists m ++ openLists n := by
  rw [openLists, List.replicate_add, List.flatten_append]
  rfl

theorem nest_closeLists (count : Nat) (waiting : List String) (later : List Tag) :
    Tag.nest (openLists count ++ waiting) (Piece.tags (closeLists count) ++ later) =
      Tag.nest waiting later := by
  induction count with
  | zero => rfl
  | succ count ih =>
    have tags : Piece.tags (closeLists (count + 1)) =
        .closing "li" :: .closing "ol" :: Piece.tags (closeLists count) := by
      simp [closeLists, closeList, List.replicate_succ, Piece.tag?]
    rw [tags, openLists_succ]
    simp only [List.cons_append, Tag.nest, beq_self_eq_true, Bool.true_and]
    exact ih

/-- A new item stands open in its list, in place of the last item or one list deeper. -/
theorem nest_startItem (entry : ContentsEntry) (depths : List Nat) (waiting : List String)
    (later : List Tag) :
    Tag.nest (openLists depths.length ++ waiting)
        (Piece.tags ((startItem entry.depth depths).1 ++ entry.link) ++ later) =
      Tag.nest (openLists (startItem entry.depth depths).2.length ++ waiting) later := by
  unfold startItem
  split
  · rename_i same
    cases depths with
    | nil => contradiction
    | cons depth rest =>
      rw [List.length_cons, openLists_succ]
      simp [Piece.tag?, ContentsEntry.link, Tag.nest]
  · rw [List.length_cons, openLists_succ]
    simp [Piece.tag?, ContentsEntry.link, Tag.nest]

/-- Entries close the lists that are open before them, and all that they open. -/
theorem nest_contentsFrom (depths : List Nat) (entries : List ContentsEntry)
    (waiting : List String) (later : List Tag) :
    Tag.nest (openLists depths.length ++ waiting)
        (Piece.tags (contentsFrom depths entries) ++ later) =
      Tag.nest waiting later := by
  induction entries generalizing depths with
  | nil => exact nest_closeLists _ _ _
  | cons entry rest ih =>
    -- the lists deeper than the entry close before it, and its item stands in what is kept
    let closed := depths.takeWhile (entry.depth < ·)
    let kept := depths.dropWhile (entry.depth < ·)
    have opened : openLists depths.length = openLists closed.length ++ openLists kept.length := by
      rw [← openLists_add, ← List.length_append, List.takeWhile_append_dropWhile]
    have tags : Piece.tags (contentsFrom depths (entry :: rest)) ++ later =
        Piece.tags (closeLists closed.length) ++
          (Piece.tags ((startItem entry.depth kept).1 ++ entry.link) ++
            (Piece.tags (contentsFrom (startItem entry.depth kept).2 rest) ++ later)) := by
      simp [contentsFrom, closed, kept]
    rw [opened, tags, List.append_assoc, nest_closeLists, nest_startItem, ih]

theorem lawful_closeLists (count : Nat) : ∀ piece ∈ closeLists count, piece.Lawful := by
  intro piece mem
  obtain ⟨list, same, inside⟩ := List.mem_flatten.mp mem
  rw [List.eq_of_mem_replicate same] at inside
  simp only [closeList, List.mem_cons, List.not_mem_nil, or_false] at inside
  rcases inside with rfl | rfl | rfl
  · exact Piece.lawful_closing rfl
  · exact Piece.lawful_closing rfl
  · exact Piece.lawful_text "\n"

theorem lawful_startItem (depth : Nat) (depths : List Nat) :
    ∀ piece ∈ (startItem depth depths).1, piece.Lawful := by
  intro piece mem
  unfold startItem at mem
  split at mem <;> simp only [List.mem_cons, List.not_mem_nil, or_false] at mem
  · rcases mem with rfl | rfl
    · exact Piece.lawful_closing rfl
    · exact Piece.lawful_text "\n"
  · rcases mem with rfl | rfl
    · exact Piece.lawful_opening rfl rfl
    · exact Piece.lawful_text "\n"

theorem lawful_link (entry : ContentsEntry) : ∀ piece ∈ entry.link, piece.Lawful := by
  intro piece mem
  simp only [ContentsEntry.link, List.mem_cons, List.not_mem_nil, or_false] at mem
  rcases mem with rfl | rfl | rfl | rfl
  · exact Piece.lawful_opening rfl rfl
  · exact Piece.lawful_opening (by simp [isName, isNameChar]) rfl
  · exact Piece.lawful_text entry.text
  · exact Piece.lawful_closing rfl

theorem lawful_contentsFrom (depths : List Nat) (entries : List ContentsEntry) :
    ∀ piece ∈ contentsFrom depths entries, piece.Lawful := by
  induction entries generalizing depths with
  | nil => exact lawful_closeLists _
  | cons entry rest ih =>
    intro piece mem
    simp only [contentsFrom, List.mem_append] at mem
    rcases mem with ((closed | start) | link) | later
    · exact lawful_closeLists _ piece closed
    · exact lawful_startItem _ _ piece start
    · exact lawful_link entry piece link
    · exact ih _ piece later

theorem wellFormed_contents (entries : List ContentsEntry) :
    WellFormed { pieces := contents entries } :=
  ⟨lawful_contentsFrom [] entries, nest_contentsFrom [] entries⟩

end Contents

section Blocks

variable (context : Context)

theorem wellFormed_inlines (content : List Inline) : WellFormed (context.inlines content) :=
  Inline.allWellFormed _ content

theorem wellFormed_pageBreak : WellFormed pageBreak :=
  WellFormed.empty.lineElement (by simp [isName, isNameChar]) rfl

theorem wellFormed_marker (id : Option String) : WellFormed (marker id) :=
  WellFormed.empty.lineElement (by simp [isName, isNameChar]) rfl

theorem isContainer_headingTag (depth : UInt8) : isContainer (headingTag depth) = true := by
  have bound : min depth.toNat 6 < 7 := by omega
  unfold headingTag
  generalize min depth.toNat 6 = level at bound
  revert level
  decide

theorem wellFormed_heading (depth : UInt8) (id label : Option String) {content : Fragment}
    (h : content.WellFormed) : WellFormed (heading depth id label content) :=
  h.lineElement (by simp [isName, isNameChar]) (isContainer_headingTag depth)

theorem wellFormed_codeBlock (language : Option String) (content : String) (lineNumbers : Bool) :
    WellFormed (codeBlock language content lineNumbers) :=
  ((WellFormed.text content).element (by simp) rfl).lineElement rfl rfl

theorem wellFormed_orderedList (start : UInt32) {items : Fragment} (h : items.WellFormed) :
    WellFormed (orderedList start items) := by
  refine h.blockElement ?_ rfl
  split
  · rfl
  · simp [isName, isNameChar]

theorem wellFormed_checkbox (checked : Bool) : WellFormed (checkbox checked) := by
  refine WellFormed.selfClosing ?_ rfl rfl
  cases checked <;> simp [isName, isNameChar]

theorem listItem_task (checked : Bool) (content : Fragment) :
    listItem (some checked) content =
      .lineElement "li" [⟨"class", some "task-list-item"⟩] (checkbox checked ++ content) := by
  simp only [listItem, lineElement, element, append_assoc]

theorem wellFormed_listItem (checked : Option Bool) {content : Fragment} (h : content.WellFormed) :
    WellFormed (listItem checked content) := by
  cases checked with
  | none => exact h.lineElement rfl rfl
  | some checked =>
    rw [listItem_task]
    exact ((wellFormed_checkbox checked).append h).lineElement (by simp [isName, isNameChar]) rfl

theorem namesLawful_quoteAttributes (kind : Option QuoteKind) :
    namesLawful (quoteAttributes context kind) = true := by
  cases kind with
  | none => rfl
  | some kind =>
    rw [quoteAttributes]
    split <;> simp [isName, isNameChar]

theorem wellFormed_attribution (content : Option (List Inline)) :
    WellFormed (attribution (content.map context.inlines)) := by
  cases content with
  | none => exact .empty
  | some content =>
    exact (wellFormed_inlines context content).lineElement (by simp [isName, isNameChar]) rfl

theorem wellFormed_caption (tag kind : String) (label : Option String)
    (position : CaptionPosition) (content : Option String)
    (container : isContainer tag = true) :
    WellFormed (caption context tag kind label position content) := by
  cases content with
  | none => exact .empty
  | some content =>
    exact (WellFormed.text content).lineElement (by simp [isName, isNameChar]) container

theorem wellFormed_figure (label caption : Option String) {child : Fragment}
    (h : child.WellFormed) :
    WellFormed (figure context label caption child) := by
  have caption := wellFormed_caption context "figcaption" "figure" label
    context.document.layout.captionPositions.figures caption rfl
  refine WellFormed.blockElement ?_ (by simp [captionId, isName, isNameChar]) rfl
  split
  · exact caption.append h
  · exact h.append caption

theorem wellFormed_tableCells (t : Table) {tag : String} (column : Nat)
    (cells : List (List Inline)) (container : isContainer tag = true) :
    WellFormed (tableCells context t tag column cells) := by
  induction cells generalizing column with
  | nil => exact .empty
  | cons cell rest ih =>
    exact ((wellFormed_inlines context cell).element (by simp) container).append (ih _)

theorem wellFormed_tableRow (t : Table) {tag : String} (cells : List (List Inline))
    (container : isContainer tag = true) :
    WellFormed (tableRow context t tag cells) :=
  (wellFormed_tableCells context t 0 cells container).lineElement rfl rfl

theorem wellFormed_table (label : Option String) (t : Table) :
    WellFormed (Html.table context label t) := by
  have caption := wellFormed_caption context "caption" "table" label
    context.document.layout.captionPositions.tables t.caption rfl
  have header : WellFormed (.blockElement "thead" [] (tableRow context t "th" t.header)) :=
    (wellFormed_tableRow context t t.header rfl).blockElement rfl rfl
  have rows : WellFormed (.concat (t.rows.map (tableRow context t "td"))) := by
    refine WellFormed.concat fun row mem => ?_
    obtain ⟨cells, -, rfl⟩ := List.mem_map.mp mem
    exact wellFormed_tableRow context t cells rfl
  exact ((caption.append header).append (rows.blockElement rfl rfl)).blockElement
    (by simp [captionId, isName, isNameChar]) rfl

theorem namesLawful_containerAttributes (style : ContainerStyle) :
    namesLawful (containerAttributes style) = true := by
  simp [containerAttributes]

theorem wellFormed_callout (kind : CalloutKind) (title : Option (List Inline))
    (padding : Option String) {children : Fragment} (h : children.WellFormed) :
    WellFormed (callout kind (title.map context.inlines) padding children) := by
  have header : WellFormed (calloutHeader padding (title.map context.inlines)) := by
    cases title with
    | none => exact .empty
    | some title =>
      exact ((wellFormed_inlines context title).element rfl rfl).lineElement (by simp) rfl
  exact (header.append
    (h.blockElement (by simp [isName, isNameChar]) rfl)).blockElement (by simp) rfl

theorem wellFormed_collapse (title : List Inline) (isOpen : Bool) {children : Fragment}
    (h : children.WellFormed) : WellFormed (collapse (context.inlines title) isOpen children) := by
  refine (((wellFormed_inlines context title).lineElement rfl rfl).append h).lineElement ?_ rfl
  cases isOpen <;> simp [isName, isNameChar]

theorem isText_slideFlag (name : String) (h : isText name = true) (flag : Option Bool) :
    isText (slideFlag name flag) = true := by
  cases flag with
  | none => rfl
  | some flag =>
    have word : isText (flagText flag) = true := by cases flag <;> decide
    have front := isText_append (isText_append (by decide : isText "const " = true) h)
      (by decide : isText " = " = true)
    exact isText_append (isText_append front word) (by decide)

theorem isText_slideTransition (transition : Option Transition) :
    isText (slideTransition transition) = true := by
  cases transition with
  | none => rfl
  | some transition =>
    have style : isText transition.style.name = true := by cases transition.style <;> decide
    have speed : isText transition.speed.name = true := by cases transition.speed <;> decide
    have front := isText_append (isText_append
      (by decide : isText "const slides_transitionStyle = '" = true) style)
      (by decide : isText "';const slides_transitionSpeed = '" = true)
    exact isText_append (isText_append front speed) (by decide)

theorem wellFormed_slideSettings (settings : SlideSettings) :
    WellFormed (slideSettings settings) := by
  refine WellFormed.lineElement (.of_texts (by simp [Piece.tag?]) fun piece mem => ?_) rfl rfl
  obtain rfl := List.mem_singleton.mp mem
  have center := isText_slideFlag "slides_center" (by decide) settings.centerVertically
  have controls := isText_slideFlag "slides_showControls" (by decide) settings.showControls
  have transition := isText_slideTransition settings.transition
  exact List.all_eq_true.mp (isText_append (isText_append center controls) transition)

theorem wellFormed_tableOfContents (title : Option (List Inline)) (maxDepth : UInt8) :
    WellFormed (tableOfContents context title maxDepth) := by
  have shown : WellFormed (contentsTitle context title) := by
    cases title with
    | some title => exact wellFormed_inlines context title
    | none =>
      unfold contentsTitle
      cases context.localize "tableofcontents" with
      | some word => exact .text word
      | none => exact .empty
  unfold tableOfContents
  split
  · exact .empty
  · exact (shown.lineElement (by simp [isName, isNameChar]) rfl).append
      ((wellFormed_contents _).blockElement rfl rfl)

theorem wellFormed_leafBlock {block : Block} (h : ∀ markup, block ≠ .html markup) :
    WellFormed (leafBlock context block) := by
  cases block with
  | paragraph content => exact (wellFormed_inlines context content).lineElement rfl rfl
  | codeBlock language content lineNumbers =>
    exact wellFormed_codeBlock language content lineNumbers
  | horizontalRule => exact (WellFormed.selfClosing rfl rfl rfl).append .lineBreak
  | html content => exact absurd rfl (h content)
  | math expression =>
    exact (WellFormed.warnIf _ _).append
      ((WellFormed.text expression).lineElement (by simp [isName, isNameChar]) rfl)
  | mermaidDiagram code =>
    exact (WellFormed.warnIf _ _).append
      ((WellFormed.text code).lineElement (by simp [isName, isNameChar]) rfl)
  | tikzDiagram code =>
    exact (WellFormed.warnIf _ _).append
      ((WellFormed.text code).lineElement (by simp [isName, isNameChar]) rfl)
  | pageBreak => exact wellFormed_pageBreak
  | tableOfContents title maxDepth => exact wellFormed_tableOfContents context title maxDepth
  | slides settings => exact wellFormed_slideSettings settings
  | _ => exact .empty

theorem wellFormed_renderHeading (cursor : Cursor) (depth : UInt8) (content : List Inline)
    (customId : Option String) :
    WellFormed (renderHeading context cursor depth content customId).1 := by
  rw [renderHeading]
  by_cases invisible : depth = 0
  · rw [if_pos invisible]
    exact wellFormed_marker _
  · rw [if_neg invisible]
    refine WellFormed.append ?_ (wellFormed_heading _ _ _ (wellFormed_inlines context content))
    split
    · exact wellFormed_pageBreak
    · exact .empty

theorem wellFormed_classedDiv (name : String) {content : Fragment} (h : content.WellFormed) :
    WellFormed (classedDiv name content) := h.blockElement (by simp [isName, isNameChar]) rfl

mutual

theorem Block.wellFormed : ∀ (block : Block) (cursor : Cursor), NoMarkup block.nodes →
    WellFormed (block.render context cursor).1
  | .heading depth content customId, cursor, _ => by
    rw [Block.render]
    exact wellFormed_renderHeading context cursor depth content customId
  | .blockQuote kind source content, cursor, h => by
    rw [Block.nodes] at h
    rw [Block.render]
    exact ((Block.allWellFormed content cursor h.tail.left).append
      (wellFormed_attribution context source)).blockElement
        (namesLawful_quoteAttributes context kind) rfl
  | .orderedList start items, cursor, h => by
    rw [Block.nodes] at h
    rw [Block.render]
    exact wellFormed_orderedList start (ListItem.allWellFormed items cursor h.tail)
  | .unorderedList items, cursor, h => by
    rw [Block.nodes] at h
    rw [Block.render]
    exact (ListItem.allWellFormed items cursor h.tail).blockElement rfl rfl
  | .table t, cursor, _ => by
    rw [Block.render]
    exact wellFormed_table context _ t
  | .figure child caption, cursor, h => by
    rw [Block.nodes] at h
    rw [Block.render]
    exact wellFormed_figure context _ caption (Block.wellFormed child _ h.tail)
  | .container children style, cursor, h => by
    rw [Block.nodes] at h
    rw [Block.render]
    exact (Block.allWellFormed children cursor h.tail).blockElement
      (namesLawful_containerAttributes style) rfl
  | .callout kind title padding children, cursor, h => by
    rw [Block.nodes] at h
    rw [Block.render]
    exact wellFormed_callout context kind title padding
      (Block.allWellFormed children cursor h.tail.right)
  | .collapse title isOpen children, cursor, h => by
    rw [Block.nodes] at h
    rw [Block.render]
    exact wellFormed_collapse context title isOpen
      (Block.allWellFormed children cursor h.tail.right)
  | .fullColumnSpan children, cursor, h => by
    rw [Block.nodes] at h
    rw [Block.render]
    exact wellFormed_classedDiv _ (Block.allWellFormed children cursor h.tail)
  | .numbered _ children, cursor, h => by
    rw [Block.nodes] at h
    rw [Block.render]
    exact Block.allWellFormed children cursor h.tail
  | .expanded children, cursor, h => by
    rw [Block.nodes] at h
    rw [Block.render]
    exact Block.allWellFormed children cursor h.tail
  | .pageMargin position children, cursor, h => by
    rw [Block.nodes] at h
    rw [Block.render]
    exact wellFormed_classedDiv _ (Block.allWellFormed children cursor h.tail)
  | .html markup, _, h => by
    refine absurd ?_ (h markup)
    rw [Block.nodes]
    · exact List.mem_singleton.mpr rfl
    all_goals simp
  | .paragraph _, _, _ | .codeBlock .., _, _ | .horizontalRule, _, _ | .math _, _, _
  | .mermaidDiagram _, _, _ | .tikzDiagram _, _, _ | .pageBreak, _, _
  | .tableOfContents .., _, _ | .linkDefinition _, _, _ | .slides _, _, _ => by
    simp only [Block.render]
    exact wellFormed_leafBlock context (by simp)

theorem Block.allWellFormed : ∀ (blocks : List Block) (cursor : Cursor),
    NoMarkup (Block.nodesOf blocks) → WellFormed (Block.renderAll context cursor blocks).1
  | [], _, _ => by
    rw [Block.renderAll]
    exact .empty
  | block :: rest, cursor, h => by
    rw [Block.nodesOf] at h
    rw [Block.renderAll]
    exact (Block.wellFormed block cursor h.left).append (Block.allWellFormed rest _ h.right)

theorem ListItem.allWellFormed : ∀ (items : List ListItem) (cursor : Cursor),
    NoMarkup (ListItem.nodesOf items) → WellFormed (ListItem.renderAll context cursor items).1
  | [], _, _ => by
    rw [ListItem.renderAll]
    exact .empty
  | .mk content checked :: rest, cursor, h => by
    rw [ListItem.nodesOf] at h
    have loose := Block.allWellFormed content cursor h.left
    rw [ListItem.renderAll]
    refine (wellFormed_listItem checked ?_).append (ListItem.allWellFormed rest _ h.right)
    cases tightContent? content with
    | some tight => exact wellFormed_inlines context tight
    | none => exact loose

end

end Blocks

/-- Without markup of its author, a document renders to runs of text and tags that nest. -/
theorem body_wellFormed (context : Context) (document : Document) (cursor : Cursor)
    (h : document.HasNoMarkup) :
    ∃ m : Markup, m.Splits (document.render context cursor).1.write ∧ m.IsNested :=
  ⟨_, (Block.allWellFormed context document.blocks cursor (Document.hasNoMarkup_iff.mp h)).splits⟩

/-- A task list in a quote, with a text that looks like tags. -/
theorem body_wellFormed_taskList :
    let document : Document :=
      ⟨[.blockQuote none none [.unorderedList [.mk [.paragraph [.text "</li><b>"]] (some true)]]]⟩
    let context : Context := { document := {}, options := {}, labelling := fun _ _ => none }
    document.HasNoMarkup ∧
      ∃ m : Markup, m.Splits (document.render context {}).1.write ∧ m.IsNested := by
  intro document context
  have noMarkup : document.HasNoMarkup := by decide
  exact ⟨noMarkup, body_wellFormed context document {} noMarkup⟩

end Quire
