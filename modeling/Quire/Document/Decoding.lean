import Quire.Document.Tree
import Quire.Json.Record
import Quire.Json.Reader

/-!
# Reading trees

The inverse of the JSON form, with defaults for what may be missing. The number that goes along
tells how many arrays and objects may still open; the limit holds for all that is read, and not
for what is skipped.
-/

namespace Quire

open Json

def TextLook.ofJson? : Nat → Json → Option TextLook
  | 0, _ => none
  | room + 1, json => do
    let r ← json.record? ["size", "weight", "style", "variant", "decoration", "case", "color"]
    pure
      { size := ← r.optional "size" (plainChoice? room TextSize.all TextSize.name)
        weight := ← r.optional "weight" (plainChoice? room TextWeight.all TextWeight.name)
        style := ← r.optional "style" (plainChoice? room TextStyle.all TextStyle.name)
        variant := ← r.optional "variant" (plainChoice? room TextVariant.all TextVariant.name)
        decoration := ←
          r.optional "decoration" (plainChoice? room TextDecoration.choices TextDecoration.name)
        letterCase := ← r.optional "case" (plainChoice? room TextCase.all TextCase.name)
        color := ← r.optional "color" text? }

def Transition.ofJson? : Nat → Json → Option Transition
  | 0, _ => none
  | room + 1, json => do
    let r ← json.record? ["style", "speed"]
    pure
      { style := ← r.required "style" (plainChoice? room TransitionStyle.all TransitionStyle.name)
        speed := ←
          r.defaulted "speed" .default
            (plainChoice? room TransitionSpeed.all TransitionSpeed.name) }

def SlideSettings.ofJson? : Nat → Json → Option SlideSettings
  | 0, _ => none
  | room + 1, json => do
    let r ← json.record? ["center_vertically", "show_controls", "transition"]
    pure
      { centerVertically := ← r.optional "center_vertically" flag?
        showControls := ← r.optional "show_controls" flag?
        transition := ← r.optional "transition" (Transition.ofJson? room) }

def ContainerStyle.fieldNames : List String :=
  ["children", "full_width", "width", "height", "foreground_color", "background_color", "margin",
   "padding", "border_color", "border_width", "corner_radius", "text_alignment"]

def ContainerStyle.ofRecord? (r : Record) : Option ContainerStyle := do
  pure
    { fullWidth := ← r.defaulted "full_width" false flag?
      width := ← r.optional "width" text?
      height := ← r.optional "height" text?
      foregroundColor := ← r.optional "foreground_color" text?
      backgroundColor := ← r.optional "background_color" text?
      margin := ← r.optional "margin" text?
      padding := ← r.optional "padding" text?
      borderColor := ← r.optional "border_color" text?
      borderWidth := ← r.optional "border_width" text?
      cornerRadius := ← r.optional "corner_radius" text?
      textAlignment := ← r.optional "text_alignment" text? }

def LinkTarget.ofRecord? (r : Record) : Option LinkTarget := do
  pure { url := ← r.required "url" text?, title := ← r.optional "title" text? }

/-- A whole number of one byte. -/
def Json.byte? (json : Json) : Option UInt8 := do
  let n ← json.natural?
  if n < UInt8.size then pure (UInt8.ofNat n) else none

/-- A whole number of four bytes. -/
def Json.word? (json : Json) : Option UInt32 := do
  let n ← json.natural?
  if n < UInt32.size then pure (UInt32.ofNat n) else none

mutual

def Inline.ofJson? : Nat → Json → Option Inline
  | _, .string "LineBreak" => some .lineBreak
  | _ + 1, .object [("LineBreak", .null)] => some .lineBreak
  | room + 1, .object [(kind, content)] => Inline.ofContent? room kind content
  | _, _ => none

def Inline.ofContent? : Nat → String → Json → Option Inline
  | 0, _, _ => none
  | _ + 1, "Text", json => do
    let r ← json.record? ["text"]
    pure (.text (← r.required "text" text?))
  | _ + 1, "CodeSpan", json => do
    let r ← json.record? ["text", "color"]
    pure (.codeSpan (← r.required "text" text?) (← r.optional "color" text?))
  | room + 1, "Emphasis", json => do
    let r ← json.record? ["content"]
    pure (.emphasis (← r.required "content" (Inline.ofJsons? room)))
  | room + 1, "Strong", json => do
    let r ← json.record? ["content"]
    pure (.strong (← r.required "content" (Inline.ofJsons? room)))
  | room + 1, "Strikethrough", json => do
    let r ← json.record? ["content"]
    pure (.strikethrough (← r.required "content" (Inline.ofJsons? room)))
  | room + 1, "Link", json => do
    let r ← json.record? ["content", "url", "title"]
    pure (.link (← r.required "content" (Inline.ofJsons? room)) (← LinkTarget.ofRecord? r))
  | room + 1, "ReferenceLink", json => do
    let r ← json.record? ["content", "label"]
    pure (.referenceLink (← r.required "content" (Inline.ofJsons? room))
      (← r.required "label" text?))
  | room + 1, "Image", json => do
    let r ← json.record? ["url", "alt", "title", "width", "height"]
    pure (.image (← r.required "url" text?) (← r.defaulted "alt" [] (Inline.ofJsons? room))
      (← r.optional "title" text?) (← r.optional "width" text?) (← r.optional "height" text?))
  | _ + 1, "MathSpan", json => do
    let r ← json.record? ["expression"]
    pure (.mathSpan (← r.required "expression" text?))
  | room + 1, "TextTransform", json => do
    let r ← json.record? ["data", "content"]
    pure (.textTransform (← r.required "data" (TextLook.ofJson? room))
      (← r.required "content" (Inline.ofJsons? room)))
  | _ + 1, "Whitespace", json => do
    let r ← json.record? ["width", "height"]
    pure (.whitespace (← r.optional "width" text?) (← r.optional "height" text?))
  | room + 1, "InlineCollapse", json => do
    let r ← json.record? ["text", "placeholder", "open"]
    pure (.inlineCollapse (← r.required "text" (Inline.ofJsons? room))
      (← r.required "placeholder" (Inline.ofJsons? room)) (← r.defaulted "open" false flag?))
  | room + 1, "PageCounter", json => do
    let r ← json.record? ["target"]
    pure (.pageCounter
      (← r.required "target" (plainChoice? room PageCounterTarget.all PageCounterTarget.name)))
  | _, _, _ => none

def Inline.ofJsons? : Nat → Json → Option (List Inline)
  | 0, _ => none
  | room + 1, json => json.items? (Inline.ofJson? room)

end

def Table.cellOfJson? : Nat → Json → Option (List Inline)
  | 0, _ => none
  | room + 1, json => do
    let r ← json.record? ["content"]
    r.required "content" (Inline.ofJsons? room)

def Table.rowOfJson? : Nat → Json → Option (List (List Inline))
  | room + 2, json => do
    let r ← json.record? ["cells"]
    r.required "cells" (items? (Table.cellOfJson? room))
  | _, _ => none

def Table.ofRecord? : Nat → Record → Option Table
  | room + 1, r => do
    pure
      { alignments := ←
          r.defaulted "alignments" [] (items? (plainChoice? room Alignment.all Alignment.name))
        header := ← r.required "header" (Table.rowOfJson? (room + 1))
        rows := ← r.required "rows" (items? (Table.rowOfJson? room))
        caption := ← r.optional "caption" text? }
  | 0, _ => none

mutual

def Block.ofJson? : Nat → Json → Option Block
  | _, .string "HorizontalRule" => some .horizontalRule
  | _, .string "PageBreak" => some .pageBreak
  | _ + 1, .object [("HorizontalRule", .null)] => some .horizontalRule
  | _ + 1, .object [("PageBreak", .null)] => some .pageBreak
  | room + 1, .object [(kind, content)] => Block.ofContent? room kind content
  | _, _ => none

def Block.ofContent? : Nat → String → Json → Option Block
  | 0, _, _ => none
  | room + 1, "Paragraph", json => do
    let r ← json.record? ["content"]
    pure (.paragraph (← r.required "content" (Inline.ofJsons? room)))
  | room + 1, "Heading", json => do
    let r ← json.record? ["depth", "content", "custom_id"]
    pure (.heading (← r.required "depth" byte?) (← r.required "content" (Inline.ofJsons? room))
      (← r.optional "custom_id" text?))
  | room + 1, "BlockQuote", json => do
    let r ← json.record? ["kind", "attribution", "content"]
    pure (.blockQuote (← r.optional "kind" (plainChoice? room QuoteKind.all QuoteKind.name))
      (← r.optional "attribution" (Inline.ofJsons? room))
      (← r.required "content" (Block.ofJsons? room)))
  | _ + 1, "CodeBlock", json => do
    let r ← json.record? ["language", "text", "line_numbers"]
    pure (.codeBlock (← r.optional "language" text?) (← r.required "text" text?)
      (← r.defaulted "line_numbers" true flag?))
  | room + 1, "OrderedList", json => do
    let r ← json.record? ["start", "items"]
    pure (.orderedList (← r.defaulted "start" 1 word?)
      (← r.required "items" (ListItem.ofJsons? room)))
  | room + 1, "UnorderedList", json => do
    let r ← json.record? ["items"]
    pure (.unorderedList (← r.required "items" (ListItem.ofJsons? room)))
  | _ + 1, "Html", json => do
    let r ← json.record? ["content"]
    pure (.html (← r.required "content" text?))
  | room + 1, "Table", json => do
    let r ← json.record? ["alignments", "header", "rows", "caption"]
    pure (.table (← Table.ofRecord? room r))
  | room + 1, "Figure", json => do
    let r ← json.record? ["child", "caption"]
    pure (.figure (← r.required "child" (Block.ofJson? room)) (← r.optional "caption" text?))
  | _ + 1, "Math", json => do
    let r ← json.record? ["expression"]
    pure (.math (← r.required "expression" text?))
  | _ + 1, "MermaidDiagram", json => do
    let r ← json.record? ["code"]
    pure (.mermaidDiagram (← r.required "code" text?))
  | _ + 1, "TikzDiagram", json => do
    let r ← json.record? ["code"]
    pure (.tikzDiagram (← r.required "code" text?))
  | room + 1, "Container", json => do
    let r ← json.record? ContainerStyle.fieldNames
    pure (.container (← r.defaulted "children" [] (Block.ofJsons? room))
      (← ContainerStyle.ofRecord? r))
  | room + 1, "Callout", json => do
    let r ← json.record? ["kind", "title", "padding", "children"]
    pure (.callout
      (← r.defaulted "kind" .callout (plainChoice? room CalloutKind.all CalloutKind.name))
      (← r.optional "title" (Inline.ofJsons? room)) (← r.optional "padding" text?)
      (← r.required "children" (Block.ofJsons? room)))
  | room + 1, "Collapse", json => do
    let r ← json.record? ["title", "open", "children"]
    pure (.collapse (← r.required "title" (Inline.ofJsons? room))
      (← r.defaulted "open" false flag?) (← r.required "children" (Block.ofJsons? room)))
  | room + 1, "FullColumnSpan", json => do
    let r ← json.record? ["children"]
    pure (.fullColumnSpan (← r.required "children" (Block.ofJsons? room)))
  | room + 1, "Numbered", json => do
    let r ← json.record? ["key", "children"]
    pure (.numbered (← r.required "key" text?) (← r.required "children" (Block.ofJsons? room)))
  | room + 1, "Expanded", json => do
    let r ← json.record? ["children"]
    pure (.expanded (← r.required "children" (Block.ofJsons? room)))
  | room + 1, "TableOfContents", json => do
    let r ← json.record? ["title", "max_depth"]
    pure (.tableOfContents (← r.optional "title" (Inline.ofJsons? room))
      (← r.defaulted "max_depth" 3 byte?))
  | _ + 1, "LinkDefinition", json => do
    let r ← json.record? ["label", "url", "title"]
    pure (.linkDefinition ⟨← r.required "label" text?, ← LinkTarget.ofRecord? r⟩)
  | room + 1, "PageMarginContent", json => do
    let r ← json.record? ["position", "children"]
    pure (.pageMargin
      (← r.required "position" (plainChoice? room MarginPosition.all MarginPosition.name))
      (← r.required "children" (Block.ofJsons? room)))
  | room + 1, "SlidesConfiguration", json => do
    pure (.slides (← SlideSettings.ofJson? (room + 1) json))
  | _, _, _ => none

def Block.ofJsons? : Nat → Json → Option (List Block)
  | 0, _ => none
  | room + 1, json => json.items? (Block.ofJson? room)

def ListItem.ofJson? : Nat → Json → Option ListItem
  | 0, _ => none
  | room + 1, json => do
    let r ← json.record? ["content", "checked"]
    pure (.mk (← r.required "content" (Block.ofJsons? room)) (← r.optional "checked" flag?))

def ListItem.ofJsons? : Nat → Json → Option (List ListItem)
  | 0, _ => none
  | room + 1, json => json.items? (ListItem.ofJson? room)

end

/-- How deeply arrays and objects may nest in what is read of a tree. -/
def Document.greatestNesting : Nat := 127

def Document.ofJson? (json : Json) : Option Document := do
  let r ← json.record? ["blocks"]
  pure ⟨← r.required "blocks" (Block.ofJsons? (greatestNesting - 1))⟩

def Document.read? (text : String) : Option Document := (Json.read? text).bind Document.ofJson?

end Quire
