import Quire.Proofs.Discovery.Identifiers
import Quire.Proofs.Html.Anchors

/-!
# Tables of contents

A table of contents reads the identifiers from the index, and headings take them by counting. Both
come to the same: the links are the headings that are written with an identifier.
-/

namespace Quire

open Html

namespace Html

/-- A start tag of a link, with the text behind it and the tag at the end of that text. -/
structure WrittenLink where
  attributes : List WrittenAttribute
  text : String
  next : Option Tag
  deriving DecidableEq, Repr

namespace Markup

def linksIn : List (Tag × String) → List WrittenLink
  | [] => []
  | (.opening name attributes, text) :: rest =>
    if name = "a" then ⟨attributes, text, rest.head?.map (·.1)⟩ :: linksIn rest else linksIn rest
  | _ :: rest => linksIn rest

def links (m : Markup) : List WrittenLink := linksIn m.rest

end Markup

namespace ContentsEntry

def written (entry : ContentsEntry) : WrittenLink :=
  { attributes := [⟨"href", some (Text.escapeMarkup ("#" ++ entry.id))⟩]
    text := Text.escapeMarkup entry.text
    next := some (.closing "a") }

end ContentsEntry

namespace Piece

theorem links_text (content : String) (rest : List Piece) :
    (markup (text content :: rest)).links = (markup rest).links := rfl

theorem links_closing (name : String) (rest : List Piece) :
    (markup (closing name :: rest)).links = (markup rest).links := rfl

theorem links_opening {name : String} (other : name ≠ "a") (attributes : List Attribute)
    (rest : List Piece) : (markup (opening name attributes :: rest)).links = (markup rest).links :=
  if_neg other

theorem links_link (entry : ContentsEntry) (rest : List Piece) :
    (markup (entry.link ++ rest)).links = entry.written :: (markup rest).links := by
  have text : (markup (.text entry.text :: closing "a" :: rest)).lead =
      Text.escapeMarkup entry.text := String.append_empty
  have item : (markup (entry.link ++ rest)).links =
      (markup (entry.link.tail ++ rest)).links := links_opening (by decide) _ _
  rw [item, ContentsEntry.written, ← text]
  rfl

theorem links_closeLists (count : Nat) (rest : List Piece) :
    (markup (closeLists count ++ rest)).links = (markup rest).links := by
  induction count with
  | zero => rfl
  | succ count ih =>
    simpa [closeLists, List.replicate_succ, closeList, links_text, links_closing] using ih

theorem links_startItem (depth : Nat) (depths : List Nat) (rest : List Piece) :
    (markup ((startItem depth depths).1 ++ rest)).links = (markup rest).links := by
  rw [startItem]
  split
  · rfl
  · exact links_opening (by decide) _ _

theorem links_contentsFrom (depths : List Nat) (entries : List ContentsEntry) (rest : List Piece) :
    (markup (contentsFrom depths entries ++ rest)).links =
      entries.map ContentsEntry.written ++ (markup rest).links := by
  induction entries generalizing depths with
  | nil => exact links_closeLists depths.length rest
  | cons entry entries ih =>
    simp only [contentsFrom, List.append_assoc, links_closeLists, links_startItem, links_link, ih]
    rfl

/-- The list of a table of contents has one link for each of its entries. -/
theorem links_contents (entries : List ContentsEntry) :
    (markup (Fragment.blockElement "nav" [] { pieces := contents entries }).pieces).links =
      entries.map ContentsEntry.written := by
  have ending : (markup [.closing "nav", .text "\n"]).links = [] := rfl
  rw [Fragment.pieces_blockElement, links_opening (by decide), links_text, contents,
    links_contentsFrom, ending, List.append_nil]

end Piece

theorem tableOfContents_of_ne_nil {context : Context} {title : Option (List Inline)}
    {maxDepth : UInt8} (h : contentsEntries context maxDepth ≠ []) :
    tableOfContents context title maxDepth =
      .lineElement "h1" [⟨"id", some "table-of-contents"⟩] (contentsTitle context title) ++
        .blockElement "nav" [] { pieces := contents (contentsEntries context maxDepth) } := by
  rw [tableOfContents]
  split
  · exact absurd ‹_› h
  · rfl

end Html

/-- The identifier and the text of a visible heading down to a depth. -/
def Anchor.linked? (maxDepth : UInt8) : Anchor → Option (String × String)
  | ⟨.heading depth text, _, id⟩ =>
    if depth ≠ 0 ∧ depth ≤ maxDepth then some (id, text) else none
  | _ => none

theorem Anchor.heading_of_linked? {maxDepth : UInt8} {a : Anchor} {link : String × String}
    (h : a.linked? maxDepth = some link) :
    ∃ depth text, a.origin = .heading depth text ∧ depth ≠ 0 ∧ a.id = link.1 := by
  unfold linked? at h
  split at h
  · rename_i depth text _ id
    split at h
    · rename_i low
      obtain rfl := Option.some.inj h
      exact ⟨depth, text, rfl, low.1, rfl⟩
    · contradiction
  · contradiction

theorem Document.element_of_heading {document : Document} {context : Context} {a : Anchor}
    {depth : UInt8} {text : String} (h : a ∈ document.anchors context)
    (origin : a.origin = .heading depth text) (visible : depth ≠ 0) :
    a.element = headingTag depth := by
  obtain ⟨⟨cursor, node⟩, -, found⟩ := List.mem_filterMap.mp h
  unfold Node.anchor? at found
  split at found
  · obtain ⟨id, -, rfl⟩ := Option.map_eq_some_iff.mp found
    injection origin with same
    subst same
    exact if_neg visible
  · obtain ⟨label, -, rfl⟩ := Option.map_eq_some_iff.mp found
    contradiction
  · obtain ⟨label, -, rfl⟩ := Option.map_eq_some_iff.mp found
    contradiction
  · split at found
    · contradiction
    · obtain rfl := Option.some.inj found
      contradiction
  · contradiction

/-- A link leads to a heading that is written with the identifier it names. -/
theorem Document.heading_of_linked {document : Document} {context : Context} {maxDepth : UInt8}
    {link : String × String}
    (h : link ∈ (document.anchors context).filterMap (Anchor.linked? maxDepth)) :
    ∃ depth, (headingTag depth, link.1) ∈
      (document.anchors context).map fun a => (a.element, a.id) := by
  obtain ⟨a, written, linked⟩ := List.mem_filterMap.mp h
  obtain ⟨depth, text, origin, visible, id⟩ := Anchor.heading_of_linked? linked
  refine ⟨depth, ?_⟩
  rw [List.mem_map, ← id, ← document.element_of_heading written origin visible]
  exact ⟨a, written, rfl⟩

section Entries

theorem Cursor.identifiers_pass (cursor : Cursor) (node : Node) :
    (cursor.pass node).identifiers =
      cursor.identifiers + if node.identifierTarget?.isSome then 1 else 0 := by
  cases node with
  | inline i => rfl
  | block b =>
    cases b with
    | heading depth content customId => by_cases marker : depth = 0 <;> simp [pass, marker] <;> rfl
    | _ => rfl

/-- The cursor takes the entries of an index one after the other, as the headings come. -/
theorem filterMap_drop_entries {β : Type} (entries : List (String × IdentifierTarget))
    (f : String × IdentifierTarget → Option β) (cursor : Cursor) (nodes : List Node)
    (h : (entries.drop cursor.identifiers).map (·.2) = nodes.filterMap Node.identifierTarget?) :
    (entries.drop cursor.identifiers).filterMap f =
      (cursor.trail nodes).filterMap fun step =>
        step.2.identifierTarget?.bind fun target =>
          (entries[step.1.identifiers]?).bind fun entry => f (entry.1, target) := by
  induction nodes generalizing cursor with
  | nil =>
    rw [List.filterMap_nil, List.map_eq_nil_iff] at h
    rw [h]
    rfl
  | cons node rest ih =>
    have moved := cursor.identifiers_pass node
    rw [List.filterMap_cons] at h
    cases found : node.identifierTarget? with
    | none =>
      rw [found] at h moved
      have later := ih (cursor.pass node) (by rw [moved]; exact h)
      rw [moved] at later
      simpa [found] using later
    | some target =>
      -- the heading takes the first of the entries that are left
      have moved : (cursor.pass node).identifiers = cursor.identifiers + 1 := by
        rw [moved, found]
        rfl
      rw [found] at h
      cases list : entries.drop cursor.identifiers with
      | nil =>
        rw [list] at h
        contradiction
      | cons entry more =>
        have here : entries[cursor.identifiers]? = some entry := by
          rw [← List.head?_drop, list]
          rfl
        have next : entries.drop (cursor.identifiers + 1) = more := by
          rw [← List.tail_drop, list]
          rfl
        rw [list, List.map_cons, List.cons.injEq] at h
        obtain ⟨same, behind⟩ := h
        have later := ih (cursor.pass node) (by rw [moved, next]; exact behind)
        rw [moved, next] at later
        rw [Cursor.trail_cons, List.filterMap_cons, List.filterMap_cons, later]
        simp only [found, here, Option.bind_some, ← same]

theorem Document.links_contentsEntries (document : Document) (context : Context)
    (maxDepth : UInt8) :
    (contentsEntries (context.discover document) maxDepth).map
        (fun entry => (entry.id, entry.text)) =
      (document.anchors (context.discover document)).filterMap (Anchor.linked? maxDepth) := by
  have taken := fun f : String × IdentifierTarget → Option (String × String) =>
    filterMap_drop_entries document.index.identifiers.entries f {} document.nodes
      document.targets_index
  rw [contentsEntries, List.map_filterMap, Document.anchors, Node.anchors, List.filterMap_filterMap]
  refine (taken _).trans (List.filterMap_congr fun step _ => ?_)
  obtain ⟨cursor, node⟩ := step
  cases node with
  | inline i => rfl
  | block b =>
    cases b with
    | heading depth content customId =>
      have visible : (1 ≤ depth) = (depth ≠ 0) := by
        rw [UInt8.le_iff_toNat_le, ne_eq, ← UInt8.toNat_inj]
        simp [Nat.one_le_iff_ne_zero]
      have index : (context.discover document).index = document.index := rfl
      simp only [Node.identifierTarget?, Node.anchor?, Option.bind_some, Context.headingId?, index,
        Index.identifierAt?, Registry.entryAt?, visible]
      cases document.index.identifiers.entries[cursor.identifiers]? with
      | none =>
        simp
      | some entry =>
        by_cases shown : (context.discover document).showsIdentifier customId.isSome = true
        · by_cases deep : depth = 0 <;> by_cases low : depth ≤ maxDepth <;>
            simp [shown, deep, low, Anchor.linked?]
        · simp [shown]
    | figure =>
      simp only [Node.identifierTarget?, Node.anchor?]
      cases (context.discover document).locationLabel .figure cursor.figures <;> rfl
    | table =>
      simp only [Node.identifierTarget?, Node.anchor?]
      cases (context.discover document).locationLabel .table cursor.tables <;> rfl
    | tableOfContents =>
      simp only [Node.identifierTarget?, Node.anchor?]
      split <;> rfl
    | _ => rfl

end Entries

/-- A table of contents links to the headings down to its depth that are written with an identifier,
in order, and is nothing if there are none. What it links to is there. -/
theorem contents_links (context : Context) (document : Document) (title : Option (List Inline))
    (maxDepth : UInt8) (cursor : Cursor) :
    let context := context.discover document
    let body := (document.render context {}).1
    let table := ((Block.tableOfContents title maxDepth).render context cursor).1
    let linked := (document.anchors context).filterMap (Anchor.linked? maxDepth)
    body.ids = (document.anchors context).map (fun a => (a.element, a.id)) ∧
      (linked = [] → table.write = "") ∧
      (linked ≠ [] → ∃ list : Markup, list.Lawful ∧
        table.write = (Fragment.lineElement "h1" [⟨"id", some "table-of-contents"⟩]
          (contentsTitle context title)).write ++ list.write ∧
        list.links = linked.map fun (id, text) =>
          ⟨[⟨"href", some ("#" ++ Text.escapeMarkup id)⟩], Text.escapeMarkup text,
            some (.closing "a")⟩) ∧
      ∀ link ∈ linked, ∃ depth, (headingTag depth, link.1) ∈ body.ids := by
  intro context body table linked
  have entries :
      (contentsEntries context maxDepth).map (fun entry => (entry.id, entry.text)) = linked :=
    document.links_contentsEntries _ maxDepth
  have shown : table = tableOfContents context title maxDepth := by
    simp only [table, Block.render, leafBlock]
  have ids : body.ids = (document.anchors context).map (fun a => (a.element, a.id)) :=
    document.ids_render context
  refine ⟨ids, ?_, ?_, ?_⟩
  · intro empty
    rw [empty, List.map_eq_nil_iff] at entries
    rw [shown, tableOfContents, entries]
    rfl
  · intro nonempty
    let list : Fragment :=
      .blockElement "nav" [] { pieces := contents (contentsEntries context maxDepth) }
    have wellFormed : list.WellFormed := (wellFormed_contents _).blockElement rfl rfl
    have filled : contentsEntries context maxDepth ≠ [] := fun empty =>
      nonempty (by rw [← entries, empty, List.map_nil])
    refine ⟨Piece.markup list.pieces, wellFormed.splits.1.lawful, ?_, ?_⟩
    · rw [shown, tableOfContents_of_ne_nil filled, Fragment.write_append, wellFormed.splits.1.write]
    · rw [Piece.links_contents, ← entries, List.map_map]
      refine List.map_congr_left fun entry _ => ?_
      simp only [ContentsEntry.written, Text.escapeMarkup_append, Function.comp_apply]
      rfl
  · intro link mem
    rw [ids]
    exact document.heading_of_linked mem

end Quire
