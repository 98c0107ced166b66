import Quire.Html.Fragment
import Quire.Proofs.Html.Markup
import Quire.Proofs.Text.Escape

/-!
# Pieces as markup

Pieces whose names and codes are in order are written as markup, with a tag for each piece that is
one. Fragments that close what they open keep doing so when they are put together.
-/

namespace Quire.Html

def Attribute.written (a : Attribute) : WrittenAttribute := ⟨a.name, a.value.map Text.escapeMarkup⟩

namespace Piece

def tag? : Piece → Option Tag
  | opening name attributes => some (.opening name (attributes.map Attribute.written))
  | closing name => some (.closing name)
  | selfClosing name attributes => some (.selfClosing name (attributes.map Attribute.written))
  | text _ => none
  | fixedBlank => none
  | script _ => none
  | verbatim _ => none

def tags (pieces : List Piece) : List Tag := pieces.filterMap tag?

@[simp]
theorem tags_nil : tags [] = [] := rfl

@[simp]
theorem tags_cons (piece : Piece) (rest : List Piece) :
    tags (piece :: rest) = piece.tag?.toList ++ tags rest := by
  rw [tags, List.filterMap_cons]
  cases piece.tag? <;> rfl

@[simp]
theorem tags_append (a b : List Piece) : tags (a ++ b) = tags a ++ tags b :=
  List.filterMap_append

def markup : List Piece → Markup
  | [] => {}
  | piece :: rest =>
    match piece.tag? with
    | some tag => { rest := (tag, (markup rest).lead) :: (markup rest).rest }
    | none => { lead := piece.write ++ (markup rest).lead, rest := (markup rest).rest }

/-- The names in a tag are names, and other pieces hold no angle brackets. -/
structure Lawful (piece : Piece) : Prop where
  tag : ∀ tag ∈ piece.tag?, tag.Lawful
  text : piece.tag? = none → ∀ c ∈ piece.write.toList, isTextChar c = true

end Piece

theorem Attribute.chars_written (a : Attribute) : a.written.chars = a.write.toList := by
  obtain ⟨name, _ | value⟩ := a
  · simp [written, WrittenAttribute.chars, WrittenAttribute.valueChars, Attribute.write]
  · simp [written, WrittenAttribute.chars, WrittenAttribute.valueChars, Attribute.write]

theorem Attribute.chars_writeAll (attributes : List Attribute) :
    (attributes.map written).flatMap WrittenAttribute.chars = (writeAll attributes).toList := by
  rw [writeAll, String.toList_join, List.flatMap_map, List.flatMap_map]
  simp only [chars_written]

namespace Piece

theorem chars_tag {piece : Piece} {tag : Tag} (h : piece.tag? = some tag) :
    tag.chars = piece.write.toList := by
  cases piece with
  | opening name attributes =>
    obtain rfl := Option.some.inj h
    simp [Tag.chars, Tag.inner, Piece.write, Attribute.chars_writeAll]
  | closing name =>
    obtain rfl := Option.some.inj h
    simp [Tag.chars, Tag.inner, Piece.write]
  | selfClosing name attributes =>
    obtain rfl := Option.some.inj h
    simp [Tag.chars, Tag.inner, Piece.write, Attribute.chars_writeAll]
  | _ => contradiction

theorem write_markup (pieces : List Piece) : (markup pieces).write = writeAll pieces := by
  rw [← String.toList_inj, Markup.write, String.toList_ofList, writeAll, String.toList_join,
    List.flatMap_map]
  induction pieces with
  | nil => rfl
  | cons piece rest ih =>
    rw [markup, List.flatMap_cons, ← ih]
    cases h : piece.tag? with
    | none => simp
    | some tag => simp [Markup.restChars, chars_tag h]

theorem tags_markup (pieces : List Piece) : (markup pieces).tags = tags pieces := by
  induction pieces with
  | nil => rfl
  | cons piece rest ih =>
    rw [markup, tags_cons]
    cases h : piece.tag? with
    | none => exact ih
    | some tag => exact congrArg (tag :: ·) ih

theorem lawful_markup {pieces : List Piece} (h : ∀ piece ∈ pieces, piece.Lawful) :
    (markup pieces).Lawful := by
  induction pieces with
  | nil => exact ⟨by simp [markup], by simp [markup], by simp [markup]⟩
  | cons piece rest ih =>
    obtain ⟨first, later⟩ := List.forall_mem_cons.mp h
    have lawful := ih later
    rw [markup]
    cases tag : piece.tag? with
    | none =>
      refine ⟨?_, lawful.tags, lawful.runs⟩
      intro c mem
      rw [String.toList_append] at mem
      rcases List.mem_append.mp mem with mem | mem
      · exact first.text tag c mem
      · exact lawful.lead c mem
    | some tag' =>
      refine ⟨by simp, ?_, ?_⟩
      · exact List.forall_mem_cons.mpr ⟨first.tag tag' tag, lawful.tags⟩
      · exact List.forall_mem_cons.mpr ⟨lawful.lead, lawful.runs⟩

theorem splits_markup {pieces : List Piece} (h : ∀ piece ∈ pieces, piece.Lawful) :
    (markup pieces).Splits (writeAll pieces) :=
  ⟨lawful_markup h, write_markup pieces⟩

end Piece

def namesLawful (attributes : List Attribute) : Bool := attributes.all fun a => isName a.name

theorem Attribute.lawful_written {attributes : List Attribute}
    (h : namesLawful attributes = true) : ∀ a ∈ attributes.map written, a.Lawful := by
  intro a mem
  obtain ⟨source, inList, rfl⟩ := List.mem_map.mp mem
  refine ⟨List.all_eq_true.mp h source inList, ?_⟩
  intro value found c inside
  obtain ⟨raw, -, rfl⟩ := Option.map_eq_some_iff.mp found
  obtain ⟨less, greater, quote, -⟩ := Text.mem_escapeMarkup inside
  simp [isValueChar, isTextChar, less, greater, quote]

namespace Attribute

@[simp]
theorem namesLawful_nil : namesLawful [] = true := rfl

@[simp]
theorem namesLawful_cons (a : Attribute) (rest : List Attribute) :
    namesLawful (a :: rest) = (isName a.name && namesLawful rest) := rfl

@[simp]
theorem namesLawful_append (as bs : List Attribute) :
    namesLawful (as ++ bs) = (namesLawful as && namesLawful bs) := List.all_append

@[simp]
theorem namesLawful_optional (name : String) (value : Option String) :
    namesLawful (Attribute.optional name value) = (value.isNone || isName name) := by
  cases value <;> simp [optional]

@[simp]
theorem namesLawful_style (declarations : List (String × Option String)) :
    namesLawful (Attribute.style declarations) = true := by
  have name : isName "style" = true := by decide
  rw [style]
  split
  · rfl
  · rw [namesLawful_cons, namesLawful_nil, Bool.and_true]
    exact name

@[simp]
theorem namesLawful_classes (names : List (Option String)) :
    namesLawful (Attribute.classes names) = true := by
  have name : isName "class" = true := by decide
  rw [classes]
  split
  · rfl
  · rw [namesLawful_cons, namesLawful_nil, Bool.and_true]
    exact name

end Attribute

/-- A name that an element with content may have. -/
def isContainer (name : String) : Bool := isName name && !voidElements.contains name

namespace Piece

theorem lawful_of_text {piece : Piece} (h : piece.tag? = none)
    (k : ∀ c ∈ piece.write.toList, isTextChar c = true) : piece.Lawful := by
  refine ⟨fun tag found => ?_, fun _ => k⟩
  rw [h] at found
  contradiction

theorem lawful_text (content : String) : (text content).Lawful := by
  refine lawful_of_text rfl fun c inside => ?_
  obtain ⟨less, greater, -⟩ := Text.mem_escapeMarkup inside
  simp [isTextChar, less, greater]

theorem lawful_of_tag {piece : Piece} {tag : Tag} (h : piece.tag? = some tag) (k : tag.Lawful) :
    piece.Lawful := by
  refine ⟨fun other found => ?_, fun none => ?_⟩
  · rw [h] at found
    obtain rfl := Option.some.inj found
    exact k
  · rw [h] at none
    contradiction

theorem lawful_opening {name : String} {attributes : List Attribute}
    (named : namesLawful attributes = true) (container : isContainer name = true) :
    (opening name attributes).Lawful := by
  rw [isContainer, Bool.and_eq_true] at container
  exact lawful_of_tag rfl ⟨container.1, Attribute.lawful_written named, container.2⟩

theorem lawful_closing {name : String} (container : isContainer name = true) :
    (closing name).Lawful := by
  rw [isContainer, Bool.and_eq_true] at container
  exact lawful_of_tag rfl ⟨container.1, by simp [Tag.attributes], rfl⟩

theorem writeAll_append (a b : List Piece) : writeAll (a ++ b) = writeAll a ++ writeAll b := by
  rw [writeAll, List.map_append, String.join_append, ← writeAll, ← writeAll]

end Piece

namespace Fragment

section Pieces

variable (a b content : Fragment) (name : String) (attributes : List Attribute)

theorem write_append : (a ++ b).write = a.write ++ b.write :=
  Piece.writeAll_append a.pieces b.pieces

theorem append_assoc : a ++ b ++ content = a ++ (b ++ content) := by
  change (⟨_ ++ _ ++ _, _ ++ _ ++ _⟩ : Fragment) = _
  rw [List.append_assoc, List.append_assoc]
  rfl

@[simp]
theorem pieces_append : (a ++ b).pieces = a.pieces ++ b.pieces := rfl

@[simp]
theorem pieces_empty : empty.pieces = [] := rfl

@[simp]
theorem pieces_ofPiece (piece : Piece) : (ofPiece piece).pieces = [piece] := rfl

@[simp]
theorem pieces_text (s : String) : (text s).pieces = [.text s] := rfl

@[simp]
theorem pieces_lineBreak : lineBreak.pieces = [.text "\n"] := rfl

@[simp]
theorem pieces_warn (warning : Warning) : (warn warning).pieces = [] := rfl

@[simp]
theorem pieces_warnIf (condition : Bool) (warning : Warning) :
    (warnIf condition warning).pieces = [] := by
  cases condition <;> rfl

@[simp]
theorem pieces_element : (element name attributes content).pieces =
    .opening name attributes :: (content.pieces ++ [.closing name]) := rfl

@[simp]
theorem pieces_lineElement : (lineElement name attributes content).pieces =
    .opening name attributes :: (content.pieces ++ [.closing name, .text "\n"]) := by
  simp [lineElement]

@[simp]
theorem pieces_blockElement : (blockElement name attributes content).pieces =
    .opening name attributes :: .text "\n" ::
      (content.pieces ++ [.closing name, .text "\n"]) := by
  simp [blockElement]

theorem write_lineElement : (lineElement name attributes content).write =
    Piece.writeAll [.opening name attributes] ++ content.write ++
      Piece.writeAll [.closing name, .text "\n"] := by
  change _ = _ ++ Piece.writeAll content.pieces ++ _
  rw [← Piece.writeAll_append, ← Piece.writeAll_append, write, pieces_lineElement]
  rfl

theorem write_blockElement : (blockElement name attributes content).write =
    Piece.writeAll [.opening name attributes, .text "\n"] ++ content.write ++
      Piece.writeAll [.closing name, .text "\n"] := by
  change _ = _ ++ Piece.writeAll content.pieces ++ _
  rw [← Piece.writeAll_append, ← Piece.writeAll_append, write, pieces_blockElement]
  rfl

@[simp]
theorem pieces_concat (fragments : List Fragment) :
    (concat fragments).pieces = fragments.flatMap Fragment.pieces := by
  induction fragments with
  | nil => rfl
  | cons first rest ih =>
    rw [List.flatMap_cons, ← ih]
    rfl

end Pieces

/-- All pieces are lawful, and the tags close what they open, whatever is open around them and
whatever comes behind. -/
structure WellFormed (fragment : Fragment) : Prop where
  lawful : ∀ piece ∈ fragment.pieces, piece.Lawful
  nested : ∀ waiting later,
    Tag.nest waiting (Piece.tags fragment.pieces ++ later) = Tag.nest waiting later

namespace WellFormed

theorem of_texts {fragment : Fragment} (h : ∀ piece ∈ fragment.pieces, piece.tag? = none)
    (k : ∀ piece ∈ fragment.pieces, ∀ c ∈ piece.write.toList, isTextChar c = true) :
    fragment.WellFormed := by
  refine ⟨fun piece mem => Piece.lawful_of_text (h piece mem) (k piece mem), ?_⟩
  intro waiting later
  rw [Piece.tags, List.filterMap_eq_nil_iff.mpr h]
  rfl

theorem empty : WellFormed .empty := of_texts (by simp) (by simp)

theorem text (content : String) : WellFormed (.text content) := by
  refine ⟨fun piece mem => ?_, fun waiting later => rfl⟩
  obtain rfl := List.mem_singleton.mp mem
  exact Piece.lawful_text content

theorem lineBreak : WellFormed .lineBreak := text "\n"

theorem warnIf (condition : Bool) (warning : Warning) : WellFormed (.warnIf condition warning) :=
  of_texts (by simp) (by simp)

theorem append {a b : Fragment} (ha : a.WellFormed) (hb : b.WellFormed) :
    WellFormed (a ++ b) := by
  refine ⟨fun piece mem => ?_, fun waiting later => ?_⟩
  · rcases List.mem_append.mp mem with mem | mem
    · exact ha.lawful piece mem
    · exact hb.lawful piece mem
  · rw [pieces_append, Piece.tags_append, List.append_assoc]
    exact (ha.nested waiting _).trans (hb.nested waiting later)

theorem concat {fragments : List Fragment} (h : ∀ fragment ∈ fragments, fragment.WellFormed) :
    WellFormed (.concat fragments) := by
  induction fragments with
  | nil => exact empty
  | cons first rest ih =>
    obtain ⟨head, tail⟩ := List.forall_mem_cons.mp h
    exact head.append (ih tail)

theorem selfClosing {name : String} {attributes : List Attribute}
    (named : namesLawful attributes = true) (lawful : isName name = true)
    (void : voidElements.contains name = true) :
    WellFormed (.ofPiece (.selfClosing name attributes)) := by
  refine ⟨fun piece mem => ?_, fun waiting later => rfl⟩
  obtain rfl := List.mem_singleton.mp mem
  exact Piece.lawful_of_tag rfl ⟨lawful, Attribute.lawful_written named, void⟩

theorem element {name : String} {attributes : List Attribute} {content : Fragment}
    (h : content.WellFormed) (named : namesLawful attributes = true)
    (container : isContainer name = true) :
    WellFormed (.element name attributes content) := by
  refine ⟨fun piece mem => ?_, fun waiting later => ?_⟩
  · rw [pieces_element, List.mem_cons, List.mem_append, List.mem_singleton] at mem
    rcases mem with rfl | inside | rfl
    · exact Piece.lawful_opening named container
    · exact h.lawful piece inside
    · exact Piece.lawful_closing container
  · have tags : Piece.tags (Fragment.element name attributes content).pieces ++ later =
        .opening name (attributes.map Attribute.written) ::
          (Piece.tags content.pieces ++ (.closing name :: later)) := by
      simp [Piece.tag?]
    rw [tags, Tag.nest, h.nested, Tag.nest, beq_self_eq_true, Bool.true_and]

theorem lineElement {name : String} {attributes : List Attribute} {content : Fragment}
    (h : content.WellFormed) (named : namesLawful attributes = true)
    (container : isContainer name = true) :
    WellFormed (.lineElement name attributes content) :=
  (h.element named container).append lineBreak

theorem blockElement {name : String} {attributes : List Attribute} {content : Fragment}
    (h : content.WellFormed) (named : namesLawful attributes = true)
    (container : isContainer name = true) :
    WellFormed (.blockElement name attributes content) :=
  (lineBreak.append h).lineElement named container

end WellFormed

/-- What a well-formed fragment writes is nested markup. -/
theorem WellFormed.splits {fragment : Fragment} (h : fragment.WellFormed) :
    (Piece.markup fragment.pieces).Splits fragment.write ∧
      (Piece.markup fragment.pieces).IsNested := by
  refine ⟨Piece.splits_markup h.lawful, ?_⟩
  have nested := h.nested [] []
  rw [List.append_nil] at nested
  rw [Markup.IsNested, Piece.tags_markup, nested]
  rfl

end Fragment

end Quire.Html
