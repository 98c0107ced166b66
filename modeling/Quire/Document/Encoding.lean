import Quire.Document.Tree
import Quire.Json.Value

/-!
# Trees in JSON

A node is an object with the name of its kind and a record of its fields, or only that name where
there are no fields. Fields that may be missing are left out when they are, but for styles and
settings, which always show all their fields.
-/

namespace Quire

def TextLook.toJson (look : TextLook) : Json :=
  .object
    [("size", Json.ofOption (fun x => .string x.name) look.size),
     ("weight", Json.ofOption (fun x => .string x.name) look.weight),
     ("style", Json.ofOption (fun x => .string x.name) look.style),
     ("variant", Json.ofOption (fun x => .string x.name) look.variant),
     ("decoration", Json.ofOption (fun x => .string x.name) look.decoration),
     ("case", Json.ofOption (fun x => .string x.name) look.letterCase),
     ("color", Json.ofOption .string look.color)]

def Transition.toJson (transition : Transition) : Json :=
  .object
    [("style", .string transition.style.name), ("speed", .string transition.speed.name)]

def SlideSettings.toJson (settings : SlideSettings) : Json :=
  .object
    [("center_vertically", Json.ofOption .bool settings.centerVertically),
     ("show_controls", Json.ofOption .bool settings.showControls),
     ("transition", Json.ofOption Transition.toJson settings.transition)]

/-- The fields of a container other than its children. -/
def ContainerStyle.members (style : ContainerStyle) : List (String × Json) :=
  [("full_width", .bool style.fullWidth),
   ("width", Json.ofOption .string style.width),
   ("height", Json.ofOption .string style.height),
   ("foreground_color", Json.ofOption .string style.foregroundColor),
   ("background_color", Json.ofOption .string style.backgroundColor),
   ("margin", Json.ofOption .string style.margin),
   ("padding", Json.ofOption .string style.padding),
   ("border_color", Json.ofOption .string style.borderColor),
   ("border_width", Json.ofOption .string style.borderWidth),
   ("corner_radius", Json.ofOption .string style.cornerRadius),
   ("text_alignment", Json.ofOption .string style.textAlignment)]

def LinkTarget.members (target : LinkTarget) : List (String × Json) :=
  ("url", .string target.url) :: Json.optionalMember "title" .string target.title

def LinkDefinition.toJson (definition : LinkDefinition) : Json :=
  .object (("label", .string definition.label) :: definition.target.members)

def Json.ofKind (kind : String) (members : List (String × Json)) : Json :=
  .object [(kind, .object members)]

mutual

def Inline.toJson : Inline → Json
  | .text content => .ofKind "Text" [("text", .string content)]
  | .codeSpan content color =>
    .ofKind "CodeSpan" (("text", .string content) :: Json.optionalMember "color" .string color)
  | .emphasis content => .ofKind "Emphasis" [("content", .array (Inline.toJsons content))]
  | .strong content => .ofKind "Strong" [("content", .array (Inline.toJsons content))]
  | .strikethrough content =>
    .ofKind "Strikethrough" [("content", .array (Inline.toJsons content))]
  | .lineBreak => .string "LineBreak"
  | .link content target =>
    .ofKind "Link" (("content", .array (Inline.toJsons content)) :: target.members)
  | .referenceLink content label =>
    .ofKind "ReferenceLink"
      [("content", .array (Inline.toJsons content)), ("label", .string label)]
  | .image url alt title width height =>
    .ofKind "Image"
      ([("url", .string url), ("alt", .array (Inline.toJsons alt))] ++
        Json.optionalMember "title" .string title ++
        Json.optionalMember "width" .string width ++
        Json.optionalMember "height" .string height)
  | .mathSpan expression => .ofKind "MathSpan" [("expression", .string expression)]
  | .textTransform look content =>
    .ofKind "TextTransform"
      [("data", look.toJson), ("content", .array (Inline.toJsons content))]
  | .whitespace width height =>
    .ofKind "Whitespace"
      (Json.optionalMember "width" .string width ++ Json.optionalMember "height" .string height)
  | .inlineCollapse full placeholder isOpen =>
    .ofKind "InlineCollapse"
      [("text", .array (Inline.toJsons full)),
       ("placeholder", .array (Inline.toJsons placeholder)), ("open", .bool isOpen)]
  | .pageCounter target => .ofKind "PageCounter" [("target", .string target.name)]

def Inline.toJsons : List Inline → List Json
  | [] => []
  | inline :: rest => inline.toJson :: Inline.toJsons rest

end

def Inline.optionalMember (name : String) (content : Option (List Inline)) :
    List (String × Json) :=
  Json.optionalMember name (fun c => .array (Inline.toJsons c)) content

def Table.rowToJson (cells : List (List Inline)) : Json :=
  .object
    [("cells", .array (cells.map fun cell =>
      .object [("content", .array (Inline.toJsons cell))]))]

def Table.members (table : Table) : List (String × Json) :=
  [("alignments", .array (table.alignments.map fun a => .string a.name)),
   ("header", Table.rowToJson table.header),
   ("rows", .array (table.rows.map Table.rowToJson))] ++
    Json.optionalMember "caption" .string table.caption

mutual

def Block.toJson : Block → Json
  | .paragraph content => .ofKind "Paragraph" [("content", .array (Inline.toJsons content))]
  | .heading depth content customId =>
    .ofKind "Heading"
      ([("depth", .ofNat depth.toNat), ("content", .array (Inline.toJsons content))] ++
        Json.optionalMember "custom_id" .string customId)
  | .blockQuote kind attribution content =>
    .ofKind "BlockQuote"
      (Json.optionalMember "kind" (fun k => .string k.name) kind ++
        Inline.optionalMember "attribution" attribution ++
        [("content", .array (Block.toJsons content))])
  | .codeBlock language text lineNumbers =>
    .ofKind "CodeBlock"
      (Json.optionalMember "language" .string language ++
        [("text", .string text), ("line_numbers", .bool lineNumbers)])
  | .orderedList start items =>
    .ofKind "OrderedList"
      [("start", .ofNat start.toNat), ("items", .array (ListItem.toJsons items))]
  | .unorderedList items => .ofKind "UnorderedList" [("items", .array (ListItem.toJsons items))]
  | .horizontalRule => .string "HorizontalRule"
  | .html content => .ofKind "Html" [("content", .string content)]
  | .table t => .ofKind "Table" t.members
  | .figure child caption =>
    .ofKind "Figure" (("child", child.toJson) :: Json.optionalMember "caption" .string caption)
  | .math expression => .ofKind "Math" [("expression", .string expression)]
  | .mermaidDiagram code => .ofKind "MermaidDiagram" [("code", .string code)]
  | .tikzDiagram code => .ofKind "TikzDiagram" [("code", .string code)]
  | .container children style =>
    .ofKind "Container" (("children", .array (Block.toJsons children)) :: style.members)
  | .callout kind title padding children =>
    .ofKind "Callout"
      (("kind", .string kind.name) :: Inline.optionalMember "title" title ++
        Json.optionalMember "padding" .string padding ++
        [("children", .array (Block.toJsons children))])
  | .collapse title isOpen children =>
    .ofKind "Collapse"
      [("title", .array (Inline.toJsons title)), ("open", .bool isOpen),
       ("children", .array (Block.toJsons children))]
  | .fullColumnSpan children =>
    .ofKind "FullColumnSpan" [("children", .array (Block.toJsons children))]
  | .numbered key children =>
    .ofKind "Numbered" [("key", .string key), ("children", .array (Block.toJsons children))]
  | .expanded children => .ofKind "Expanded" [("children", .array (Block.toJsons children))]
  | .pageBreak => .string "PageBreak"
  | .tableOfContents title maxDepth =>
    .ofKind "TableOfContents"
      (Inline.optionalMember "title" title ++ [("max_depth", .ofNat maxDepth.toNat)])
  | .linkDefinition definition => .object [("LinkDefinition", definition.toJson)]
  | .pageMargin position children =>
    .ofKind "PageMarginContent"
      [("position", .string position.name), ("children", .array (Block.toJsons children))]
  | .slides settings => .object [("SlidesConfiguration", settings.toJson)]

def Block.toJsons : List Block → List Json
  | [] => []
  | block :: rest => block.toJson :: Block.toJsons rest

def ListItem.toJsons : List ListItem → List Json
  | [] => []
  | .mk content checked :: rest =>
    .object (("content", .array (Block.toJsons content)) ::
      Json.optionalMember "checked" .bool checked) :: ListItem.toJsons rest

end

def Document.toJson (document : Document) : Json :=
  .object [("blocks", .array (Block.toJsons document.blocks))]

end Quire
