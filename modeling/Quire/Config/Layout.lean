import Quire.Css.Size

/-!
# Page layout

The measures of pages and paragraphs, and where captions stand.
-/

namespace Quire

inductive CaptionPosition where
  | top | bottom
  deriving DecidableEq, Repr

namespace CaptionPosition

def name : CaptionPosition → String
  | top => "top"
  | bottom => "bottom"

def all : List CaptionPosition := [top, bottom]

end CaptionPosition

structure CaptionPositions where
  figures : CaptionPosition := .bottom
  tables : CaptionPosition := .bottom
  deriving DecidableEq, Repr

inductive HorizontalAlignment where
  | start | center | finish | justify
  deriving DecidableEq, Repr

namespace HorizontalAlignment

def name : HorizontalAlignment → String
  | start => "start"
  | center => "center"
  | finish => "end"
  | justify => "justify"

def all : List HorizontalAlignment := [start, center, finish, justify]

end HorizontalAlignment

structure PageFormat where
  width : Option Size := none
  height : Option Size := none
  margin : Option Sizes := none
  columns : Option UInt32 := none
  alignment : Option HorizontalAlignment := none
  deriving DecidableEq, Repr

def PageFormat.hasSize (format : PageFormat) : Bool := format.width.isSome || format.height.isSome

/-- Measures in `em`, but for the line height, which has no unit. -/
structure ParagraphStyle where
  spacing : Option Binary64 := none
  lineHeight : Option Binary64 := none
  letterSpacing : Option Binary64 := none
  indent : Option Binary64 := none
  deriving DecidableEq, Repr

structure Layout where
  pageFormat : PageFormat := {}
  paragraphStyle : ParagraphStyle := {}
  captionPositions : CaptionPositions := {}
  /-- Headings down to this depth start a new page where there are pages. Zero means none. -/
  pageBreakDepth : UInt8 := 1
  deriving DecidableEq, Repr

end Quire
