import Quire.Job
import Quire.Proofs.Discovery.Identifiers
import Quire.Proofs.Discovery.Locations
import Quire.Proofs.Html.Anchors
import Quire.Proofs.Numbering.Default
import Quire.Proofs.Text.Name

/-!
# Which identifiers can be shared

Identifiers come from three sources that do not know of each other: the index keeps those of
headings apart, labels keep those of captions apart, and all tables of contents have the same one.
-/

namespace Quire

open Html NumberingScheme

theorem Html.Fragment.valuesOf_id (fragment : Fragment) :
    (Piece.markup fragment.pieces).valuesOf "id" =
      fragment.ids.map fun (element, id) => (element, Text.escapeMarkup id) := by
  have values : ∀ (element : String) (attributes : List Attribute),
      (attributes.map Attribute.written).filterMap (fun a =>
        if a.name = "id" then a.value.map (element, ·) else none) =
      (Attribute.ids attributes).map fun id => (element, Text.escapeMarkup id) := by
    intro element attributes
    rw [List.filterMap_map, Attribute.ids, List.map_filterMap]
    refine List.filterMap_congr fun a _ => ?_
    by_cases named : a.name = "id"
    · simp [Attribute.written, named, Function.comp_def]
    · simp [Attribute.written, named]
  rw [Markup.valuesOf, Piece.tags_markup, ids, List.map_flatMap]
  induction fragment.pieces with
  | nil => rfl
  | cons piece rest ih =>
    rw [Piece.tags_cons, List.flatMap_append, ih, List.flatMap_cons]
    congr 1
    cases piece <;> simp [Piece.tag?, Piece.ids, Tag.attributes, Tag.name, values]

/-- Whether elements of two origins may have the same identifier: tables of contents have one that
no heading is kept from, and only section numbers keep captions apart from headings. -/
def Origin.mayShare (type : DocumentType) : Origin → Origin → Bool
  | .contents, .contents => true
  | .contents, .heading .. => true
  | .heading .., .contents => true
  | .heading .., .figure => type != .paged
  | .heading .., .table => type != .paged
  | .figure, .heading .. => type != .paged
  | .table, .heading .. => type != .paged
  | _, _ => false

/-- What the entries are that an element of an origin takes its identifier from. -/
def Origin.kind? : Origin → Option LocationKind
  | heading .. => some .heading
  | figure => some .figure
  | table => some .table
  | contents => none

def Origin.idAt (document : Document) (type : DocumentType) (cursor : Cursor) :
    Origin → Option String
  | heading .. => document.index.identifiers.keys[cursor.identifiers]?
  | figure =>
    (document.index.locationAt? .figure cursor.figures).map fun location =>
      "figure-" ++ type.captionLabel location
  | table =>
    (document.index.locationAt? .table cursor.tables).map fun location =>
      "table-" ++ type.captionLabel location
  | contents => some "table-of-contents"

namespace Cursor

def taken (cursor : Cursor) : LocationKind → Nat
  | .heading => cursor.identifiers
  | .figure => cursor.figures
  | .table => cursor.tables

theorem taken_pass (cursor : Cursor) (node : Node) (kind : LocationKind) :
    cursor.taken kind ≤ (cursor.pass node).taken kind := by
  cases node with
  | inline i => exact le_rfl
  | block b =>
    cases b with
    | heading depth content customId =>
      by_cases marker : depth = 0 <;> cases kind <;>
        simp [pass, marker, taken, passIdentifier, passHeading]
    | figure | table => cases kind <;> simp [pass, taken, passFigure, passTable]
    | _ => exact le_rfl

theorem taken_of_mem_trail {cursor : Cursor} {nodes : List Node} {step : Cursor × Node}
    (mem : step ∈ cursor.trail nodes) (kind : LocationKind) :
    cursor.taken kind ≤ step.1.taken kind := by
  induction nodes generalizing cursor with
  | nil => contradiction
  | cons node rest ih =>
    rcases List.mem_cons.mp mem with rfl | later
    · exact le_rfl
    · exact (cursor.taken_pass node kind).trans (ih later)

/-- The trail leads on from what a node takes. -/
theorem pairwise_trail (cursor : Cursor) (nodes : List Node) :
    (cursor.trail nodes).Pairwise fun s t =>
      ∀ kind, (s.1.pass s.2).taken kind ≤ t.1.taken kind := by
  induction nodes generalizing cursor with
  | nil => exact List.Pairwise.nil
  | cons node rest ih =>
    exact List.pairwise_cons.mpr ⟨fun step mem => taken_of_mem_trail mem, ih _⟩

end Cursor

section Apart

variable (document : Document)

/-- Captions of one kind have different labels. -/
theorem Document.captions_apart (type : DocumentType) {kind : LocationKind}
    (caption : kind ≠ .heading) {i j : Nat} {a b : Location}
    (ha : document.index.locationAt? kind i = some a)
    (hb : document.index.locationAt? kind j = some b)
    (same : type.captionLabel a = type.captionLabel b) : i = j := by
  have increasing := List.pairwise_iff_getElem.mp
    (document.increasing_captions caption type.captionDepth)
  have counters := type.counters_of_captionLabel same
  obtain ⟨hi, rfl⟩ := List.getElem?_eq_some_iff.mp ha
  obtain ⟨hj, rfl⟩ := List.getElem?_eq_some_iff.mp hb
  rcases Nat.lt_trichotomy i j with before | equal | behind
  · exact absurd counters (ne_of_lt (increasing i j hi hj before))
  · exact equal
  · exact absurd counters.symm (ne_of_lt (increasing j i hj hi behind))

theorem Document.stop_notMem_id {id : String} (h : id ∈ document.index.identifiers.keys) :
    '.' ∉ id.toList := by
  obtain ⟨name, suffix, rfl⟩ := document.spelled_identifiers id h
  have base := Text.stop_notMem_identifier name
  cases suffix with
  | zero => exact base
  | succ suffix =>
    simp only [Index.spelling, String.toList_append, List.mem_append, not_or]
    refine ⟨⟨base, by decide⟩, fun mem => ?_⟩
    exact absurd (isDigit_of_mem_decimal mem) (by decide)

/-- The full stop in front of a count keeps captions from the identifiers of headings. -/
theorem Document.caption_ne_id {id : String} (h : id ∈ document.index.identifiers.keys)
    (kind : String) (location : Location) :
    kind ++ DocumentType.paged.captionLabel location ≠ id := by
  rintro rfl
  refine document.stop_notMem_id h ?_
  simp [DocumentType.captionLabel]

end Apart

namespace DocumentType

variable (type : DocumentType) (a b : Location)

theorem figure_ne_table : "figure-" ++ type.captionLabel a ≠ "table-" ++ type.captionLabel b := by
  intro same
  have first := congrArg (fun s : String => s.toList.head?) same
  simp [String.toList_append] at first

theorem figure_ne_contents : "figure-" ++ type.captionLabel a ≠ "table-of-contents" := by
  intro same
  have first := congrArg (fun s : String => s.toList.head?) same
  simp [String.toList_append] at first

theorem table_ne_contents : "table-" ++ type.captionLabel a ≠ "table-of-contents" := by
  intro same
  have texts := congrArg String.toList same
  rw [String.toList_append] at texts
  have rest : (type.captionLabel a).toList = "of-contents".toList := List.append_cancel_left texts
  have letter : 'o' ∈ (type.captionLabel a).toList := by
    rw [rest]
    decide
  rcases mem_captionLabel letter with digit | stop
  · exact absurd digit (by decide)
  · exact absurd stop (by decide)

end DocumentType

section Shared

variable {document : Document} {type : DocumentType} {id : String}

theorem not_paged_of_heading_eq_caption {i : Nat} {kind : String} {caption : Option Location}
    (heading : document.index.identifiers.keys[i]? = some id)
    (same : caption.map (fun location => kind ++ type.captionLabel location) = some id) :
    (type != .paged) = true := by
  obtain ⟨location, -, label⟩ := Option.map_eq_some_iff.mp same
  have found := List.mem_of_getElem? heading
  cases type with
  | paged => exact absurd label (document.caption_ne_id found kind location)
  | _ => rfl

theorem Document.caption_position {kind : LocationKind} (caption : kind ≠ .heading) {i j : Nat}
    {name : String}
    (hi : (document.index.locationAt? kind i).map (name ++ type.captionLabel ·) = some id)
    (hj : (document.index.locationAt? kind j).map (name ++ type.captionLabel ·) = some id) :
    i = j := by
  obtain ⟨l, foundL, labelL⟩ := Option.map_eq_some_iff.mp hi
  obtain ⟨m, foundM, labelM⟩ := Option.map_eq_some_iff.mp hj
  refine document.captions_apart type caption foundL foundM ?_
  simpa using labelL.trans labelM.symm

theorem Document.heading_position {i j : Nat}
    (hi : document.index.identifiers.keys[i]? = some id)
    (hj : document.index.identifiers.keys[j]? = some id) : i = j := by
  obtain ⟨bound, -⟩ := List.getElem?_eq_some_iff.mp hi
  exact (List.getElem?_inj bound document.nodup_identifiers).mp (hi.trans hj.symm)

/-- Elements that take different entries have different identifiers, or are of origins that may
share one. -/
theorem Origin.mayShare_of_idAt {a b : Origin} {c d : Cursor}
    (ha : a.idAt document type c = some id) (hb : b.idAt document type d = some id)
    (apart : ∀ kind, a.kind? = some kind → b.kind? = some kind → c.taken kind ≠ d.taken kind) :
    a.mayShare type b = true := by
  have spelled : ∀ {x : Option Location} {f : Location → String}, x.map f = some id →
      ∃ l, f l = id := by
    intro x f found
    obtain ⟨l, -, label⟩ := Option.map_eq_some_iff.mp found
    exact ⟨l, label⟩
  cases a with
  | heading =>
    cases b with
    | heading => exact absurd (Document.heading_position ha hb) (apart .heading rfl rfl)
    | figure | table => exact not_paged_of_heading_eq_caption ha hb
    | contents => rfl
  | figure =>
    obtain ⟨l, labelA⟩ := spelled ha
    cases b with
    | heading => exact not_paged_of_heading_eq_caption hb ha
    | figure => exact absurd (Document.caption_position (by decide) ha hb) (apart .figure rfl rfl)
    | table =>
      obtain ⟨m, labelB⟩ := spelled hb
      exact absurd (labelA.trans labelB.symm) (type.figure_ne_table l m)
    | contents => exact absurd (labelA.trans (Option.some.inj hb).symm) (type.figure_ne_contents l)
  | table =>
    obtain ⟨l, labelA⟩ := spelled ha
    cases b with
    | heading => exact not_paged_of_heading_eq_caption hb ha
    | figure =>
      obtain ⟨m, labelB⟩ := spelled hb
      exact absurd (labelB.trans labelA.symm) (type.figure_ne_table m l)
    | table => exact absurd (Document.caption_position (by decide) ha hb) (apart .table rfl rfl)
    | contents => exact absurd (labelA.trans (Option.some.inj hb).symm) (type.table_ne_contents l)
  | contents =>
    cases b with
    | heading | contents => rfl
    | figure =>
      obtain ⟨m, labelB⟩ := spelled hb
      exact absurd (labelB.trans (Option.some.inj ha).symm) (type.figure_ne_contents m)
    | table =>
      obtain ⟨m, labelB⟩ := spelled hb
      exact absurd (labelB.trans (Option.some.inj ha).symm) (type.table_ne_contents m)

end Shared

section Anchors

/-- An element with an identifier takes an entry for it, unless it is a generated heading. -/
theorem Node.taken_of_anchor? {context : Context} {cursor : Cursor} {node : Node} {a : Anchor}
    (h : node.anchor? context cursor = some a) {kind : LocationKind}
    (takes : a.origin.kind? = some kind) : cursor.taken kind < (cursor.pass node).taken kind := by
  unfold anchor? at h
  split at h
  · rename_i depth content customId
    obtain ⟨id, -, rfl⟩ := Option.map_eq_some_iff.mp h
    obtain rfl := Option.some.inj takes
    by_cases marker : depth = 0 <;>
      simp [Cursor.pass, marker, Cursor.taken, Cursor.passIdentifier, Cursor.passHeading]
  · obtain ⟨label, -, rfl⟩ := Option.map_eq_some_iff.mp h
    obtain rfl := Option.some.inj takes
    exact Nat.lt_succ_self _
  · obtain ⟨label, -, rfl⟩ := Option.map_eq_some_iff.mp h
    obtain rfl := Option.some.inj takes
    exact Nat.lt_succ_self _
  · split at h
    · contradiction
    · obtain rfl := Option.some.inj h
      contradiction
  · contradiction

/-- What elements are identified by in a context that labels captions as a document does which sets
no formats. -/
theorem Node.idAt_of_anchor? {context : Context} {document : Document} {type : DocumentType}
    (index : context.index = document.index)
    (labels : ∀ kind ≠ .heading, ∀ location,
      context.labelling kind location = some (type.captionLabel location))
    {cursor : Cursor} {node : Node} {a : Anchor} (h : node.anchor? context cursor = some a) :
    a.origin.idAt document type cursor = some a.id := by
  have label : ∀ {kind : LocationKind} {i : Nat} {label : String}, kind ≠ .heading →
      context.locationLabel kind i = some label →
      ∃ location, document.index.locationAt? kind i = some location ∧
        type.captionLabel location = label := by
    intro kind i label caption found
    rw [Context.locationLabel] at found
    split at found
    · obtain ⟨location, recorded, shown⟩ := Option.bind_eq_some_iff.mp found
      rw [labels kind caption location, Option.filter_eq_some_iff] at shown
      exact ⟨location, index ▸ recorded, Option.some.inj shown.1⟩
    · contradiction
  unfold anchor? at h
  split at h
  · obtain ⟨id, taken, rfl⟩ := Option.map_eq_some_iff.mp h
    rw [Context.headingId?, index] at taken
    split at taken
    · exact (List.getElem?_map ..).trans taken
    · contradiction
  · obtain ⟨text, found, rfl⟩ := Option.map_eq_some_iff.mp h
    obtain ⟨location, recorded, rfl⟩ := label (by decide) found
    simp [Origin.idAt, recorded]
  · obtain ⟨text, found, rfl⟩ := Option.map_eq_some_iff.mp h
    obtain ⟨location, recorded, rfl⟩ := label (by decide) found
    simp [Origin.idAt, recorded]
  · split at h
    · contradiction
    · obtain rfl := Option.some.inj h
      rfl
  · contradiction

theorem Document.anchors_apart (context : Context) (document : Document) {type : DocumentType}
    (index : context.index = document.index)
    (labels : ∀ kind ≠ .heading, ∀ location,
      context.labelling kind location = some (type.captionLabel location)) :
    (document.anchors context).Pairwise fun a b =>
      a.id = b.id → a.origin.mayShare type b.origin = true := by
  rw [anchors, Node.anchors, List.pairwise_filterMap]
  refine (Cursor.pairwise_trail {} document.nodes).imp fun {s t} later a foundA b foundB same => ?_
  -- what the first of two steps takes lies before all that the second can take
  refine Origin.mayShare_of_idAt (Node.idAt_of_anchor? index labels foundA)
    (same ▸ Node.idAt_of_anchor? index labels foundB) fun kind takesA takesB => ?_
  have taken := Node.taken_of_anchor? foundA takesA
  have behind := later kind
  omega

end Anchors

/-- In a document without markup of its author and without formats of its own, identifiers are
different, except that generated headings have the same one and may share it with a heading, and
that captions without section numbers may share one with a heading. -/
theorem ids_distinct (config : Config) (document : Document)
    (default : config.document.formats = NumberingFormats.default config.document.type)
    (noMarkup : document.HasNoMarkup) :
    ∃ context m, Context.ofConfig config = .ok context ∧
      Markup.Splits m (document.render (context.discover document) {}).1.write ∧
      m.valuesOf "id" = (document.anchors (context.discover document)).map
        (fun a => (a.element, Text.escapeMarkup a.id)) ∧
      (document.anchors (context.discover document)).Pairwise fun a b =>
        Text.escapeMarkup a.id = Text.escapeMarkup b.id →
          a.origin.mayShare config.document.type b.origin = true := by
  obtain ⟨scheme, read, labels⟩ := NumberingFormats.read_default config.document.type
  let context : Context :=
    { document := config.document, options := config.options, labelling := scheme.label }
  have configured : Context.ofConfig config = .ok context := by
    rw [Context.ofConfig, default, read]
    rfl
  have wellFormed := Block.allWellFormed (context.discover document) document.blocks {}
    (Document.hasNoMarkup_iff.mp noMarkup)
  refine ⟨context, _, configured, wellFormed.splits.1, ?_, ?_⟩
  · have ids := document.ids_render (context.discover document)
    rw [Document.render] at ids
    rw [Fragment.valuesOf_id, ids, List.map_map]
    rfl
  · have apart := Document.anchors_apart (context.discover document) document rfl labels
    exact apart.imp fun same equal => same (Text.escapeMarkup_injective equal)

/-- A heading with the words of a caption, in a document with pages. -/
theorem ids_distinct_paged :
    let config : Config := { document := { type := .paged } }
    let document : Document :=
      ⟨[.heading 1 [.text "Figure 1.1"] none, .figure (.paragraph []) none]⟩
    (config.document.formats = NumberingFormats.default config.document.type ∧
        document.HasNoMarkup) ∧
      ∃ context m, Context.ofConfig config = .ok context ∧
        Markup.Splits m (document.render (context.discover document) {}).1.write ∧
        m.valuesOf "id" = (document.anchors (context.discover document)).map
          (fun a => (a.element, Text.escapeMarkup a.id)) ∧
        (document.anchors (context.discover document)).Pairwise fun a b =>
          Text.escapeMarkup a.id = Text.escapeMarkup b.id →
            a.origin.mayShare .paged b.origin = true := by
  intro config document
  have default : config.document.formats = NumberingFormats.default config.document.type := rfl
  have noMarkup : document.HasNoMarkup := by decide
  exact ⟨⟨default, noMarkup⟩, ids_distinct config document default noMarkup⟩

/-- Two tables of contents, and headings with the words of what is generated. -/
def lookalikes : Document :=
  ⟨[.tableOfContents none 3, .tableOfContents none 3,
    .heading 1 [.text "Table of contents"] none,
    .heading 1 [.text "Figure 1"] none, .figure (.paragraph []) none,
    .heading 1 [.text "Table 1"] none, .table { header := [], rows := [] }]⟩

theorem index_lookalikes : lookalikes.index =
    { identifiers := ⟨[("table-of-contents", ⟨1, "Table of contents", false⟩),
        ("figure-1", ⟨1, "Figure 1", false⟩), ("table-1", ⟨1, "Table 1", false⟩)]⟩
      locations :=
        { headings := [⟨[1], []⟩, ⟨[2], []⟩, ⟨[3], []⟩]
          figures := [⟨[2], [1, 1, 1, 1, 1, 1, 1]⟩]
          tables := [⟨[3], [1, 1, 1, 1, 1, 1, 1]⟩] } } := by
  rw [Document.index_eq_foldl]
  decide +kernel

/-- All three sources meet in its body: the tables of contents share one identifier with the first
heading, and the figure and the table each share one with the heading before. -/
theorem ids_lookalikes :
    let config : Config := {}
    (config.document.formats = NumberingFormats.default config.document.type ∧
        lookalikes.HasNoMarkup) ∧
    ∃ context m, Context.ofConfig config = .ok context ∧
      Markup.Splits m (lookalikes.render (context.discover lookalikes) {}).1.write ∧
      m.valuesOf "id" =
        [("h1", "table-of-contents"), ("h1", "table-of-contents"), ("h1", "table-of-contents"),
         ("h1", "figure-1"), ("figure", "figure-1"), ("h1", "table-1"), ("table", "table-1")] ∧
      ¬ ((m.valuesOf "id").map (·.2)).Nodup := by
  intro config
  have noMarkup : lookalikes.HasNoMarkup := by decide
  let context : Context :=
    { document := {}
      options := {}
      labelling := NumberingScheme.label
        { figures := NumberingFormat.read? "1", tables := NumberingFormat.read? "1" } }
  have configured : Context.ofConfig config = .ok context := rfl
  have wellFormed := Block.allWellFormed (context.discover lookalikes) lookalikes.blocks {}
    (Document.hasNoMarkup_iff.mp noMarkup)
  have ids : (Piece.markup
      (lookalikes.render (context.discover lookalikes) {}).1.pieces).valuesOf "id" =
      [("h1", "table-of-contents"), ("h1", "table-of-contents"), ("h1", "table-of-contents"),
       ("h1", "figure-1"), ("figure", "figure-1"), ("h1", "table-1"), ("table", "table-1")] := by
    rw [Fragment.valuesOf_id, Document.ids_render, Context.discover, index_lookalikes]
    decide +kernel
  refine ⟨⟨rfl, noMarkup⟩, context, _, configured, wellFormed.splits.1, ids, ?_⟩
  have whole := congrArg (List.map (·.2)) ids
  intro nodup
  rw [Document.render] at whole
  rw [whole] at nodup
  exact absurd nodup (by decide)

end Quire
