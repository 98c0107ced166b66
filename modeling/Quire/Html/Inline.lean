import Quire.Document.PlainText
import Quire.Html.Fragment
import Quire.Text.Blank

/-!
# Inline nodes in HTML

The markup of running text. Only links by label depend on anything else: on what the labels mean.
-/

namespace Quire

open Html

/-- A source with no visible character. -/
def isEmptySource (source : String) : Bool := (Text.trim source.toList).isEmpty

def TextLook.attributes (look : TextLook) : List Attribute :=
  Attribute.classes [look.size.map TextSize.cssClass] ++
    Attribute.style
      [("font-weight", look.weight.map TextWeight.name),
       ("font-style", look.style.map TextStyle.name),
       ("font-variant", look.variant.map TextVariant.name),
       ("text-decoration", look.decoration.map TextDecoration.css),
       ("text-transform", look.letterCase.map TextCase.name),
       ("color", look.color)]

def LinkTarget.attributes (target : LinkTarget) : List Attribute :=
  ⟨"href", some target.url⟩ :: Attribute.optional "title" target.title

/-- The class that the page scripts look for. -/
def PageCounterTarget.cssClass : PageCounterTarget → String
  | current => "current-page-number"
  | total => "total-page-number"

/-- A swatch next to code that spells a colour. -/
def colorPreview : Option String → Fragment
  | some color =>
    .element "span"
      (⟨"class", some "color-preview"⟩ :: Attribute.style [("background-color", some color)])
      .empty
  | none => .empty

def imageAttributes (url alt : String) (title width height : Option String) : List Attribute :=
  [⟨"src", some url⟩, ⟨"alt", some alt⟩] ++ Attribute.optional "title" title ++
    Attribute.style [("width", width), ("height", height)]

/-- A link by label: a link if the label is defined, and else its content with a warning. -/
def referenceLink (target : Option LinkTarget) (label : String) (content : Fragment) : Fragment :=
  match target with
  | some target => .element "a" target.attributes content
  | none =>
    .warn (.unresolvedReference label) ++
      .element "span" [⟨"class", some "unresolved-reference"⟩] content

def whitespace : Option String → Option String → Fragment
  | none, none => .element "span" [] (.ofPiece .fixedBlank)
  | width, height => .element "div" (Attribute.style [("width", width), ("height", height)]) .empty

/-- A text and its placeholder. Scripts swap them, so both are written into attributes as well. -/
def inlineCollapse (full placeholder : Fragment) (isOpen : Bool) : Fragment :=
  let shown := if isOpen then full else placeholder
  { warnings := full.warnings ++ placeholder.warnings } ++
    .element "span"
      [⟨"class", some "inline-collapse"⟩, ⟨"data-full-text", some full.write⟩,
       ⟨"data-collapsed-text", some placeholder.write⟩,
       ⟨"data-collapsed", some (if isOpen then "false" else "true")⟩]
      { pieces := shown.pieces }

mutual

def Inline.html (link? : String → Option LinkTarget) : Inline → Fragment
  | .text content => .text content
  | .codeSpan content color =>
    .element "span" [⟨"class", some "codespan-content"⟩]
      (.element "code" [] (.text content) ++ colorPreview color)
  | .emphasis content => .element "em" [] (Inline.htmlOf link? content)
  | .strong content => .element "strong" [] (Inline.htmlOf link? content)
  | .strikethrough content => .element "del" [] (Inline.htmlOf link? content)
  | .lineBreak => .ofPiece (.selfClosing "br" []) ++ .lineBreak
  | .link content target => .element "a" target.attributes (Inline.htmlOf link? content)
  | .referenceLink content label =>
    Quire.referenceLink (link? label) label (Inline.htmlOf link? content)
  | .image url alt title width height =>
    .ofPiece (.selfClosing "img"
      (imageAttributes url (Inline.plainTexts alt) title width height))
  | .mathSpan expression =>
    .warnIf (isEmptySource expression) (.emptySource "inline formula") ++
      .element "formula" [] (.text expression)
  | .textTransform look content =>
    .element "span" look.attributes (Inline.htmlOf link? content)
  | .whitespace width height => Quire.whitespace width height
  | .inlineCollapse full placeholder isOpen =>
    Quire.inlineCollapse (Inline.htmlOf link? full) (Inline.htmlOf link? placeholder) isOpen
  | .pageCounter target => .element "span" [⟨"class", some target.cssClass⟩] (.text "-")

def Inline.htmlOf (link? : String → Option LinkTarget) : List Inline → Fragment
  | [] => .empty
  | inline :: rest => inline.html link? ++ Inline.htmlOf link? rest

end

end Quire
