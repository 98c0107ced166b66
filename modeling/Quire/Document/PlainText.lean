import Quire.Document.Tree

/-!
# Plain text

The text of inline nodes without any marks. Breaks and spaces count as one blank, and what is
collapsed counts as its full text.
-/

namespace Quire

mutual

def Inline.plainText : Inline → String
  | .text content => content
  | .codeSpan content _ => content
  | .mathSpan expression => expression
  | .emphasis content => Inline.plainTexts content
  | .strong content => Inline.plainTexts content
  | .strikethrough content => Inline.plainTexts content
  | .link content _ => Inline.plainTexts content
  | .referenceLink content _ => Inline.plainTexts content
  | .image _ alt _ _ _ => Inline.plainTexts alt
  | .textTransform _ content => Inline.plainTexts content
  | .inlineCollapse full _ _ => Inline.plainTexts full
  | .lineBreak => " "
  | .whitespace _ _ => " "
  | .pageCounter _ => ""

def Inline.plainTexts : List Inline → String
  | [] => ""
  | inline :: rest => inline.plainText ++ Inline.plainTexts rest

end

end Quire
