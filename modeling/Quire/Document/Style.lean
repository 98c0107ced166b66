/-!
# Choices of style

The fixed choices that nodes make: how text looks, how columns align, what kind of box or
transition there is. `name` is the spelling in a tree, `css` the one in markup where it differs.
-/

namespace Quire

inductive TextSize where
  | tiny | small | normal | medium | larger | large | huge
  deriving DecidableEq, Repr

namespace TextSize

def name : TextSize → String
  | tiny => "tiny"
  | small => "small"
  | normal => "normal"
  | medium => "medium"
  | larger => "larger"
  | large => "large"
  | huge => "huge"

def all : List TextSize := [tiny, small, normal, medium, larger, large, huge]

def cssClass (size : TextSize) : String := "size-" ++ size.name

end TextSize

inductive TextWeight where
  | normal | bold
  deriving DecidableEq, Repr

namespace TextWeight

def name : TextWeight → String
  | normal => "normal"
  | bold => "bold"

def all : List TextWeight := [normal, bold]

end TextWeight

inductive TextStyle where
  | normal | italic
  deriving DecidableEq, Repr

namespace TextStyle

def name : TextStyle → String
  | normal => "normal"
  | italic => "italic"

def all : List TextStyle := [normal, italic]

end TextStyle

inductive TextVariant where
  | normal | smallCaps
  deriving DecidableEq, Repr

namespace TextVariant

def name : TextVariant → String
  | normal => "normal"
  | smallCaps => "small-caps"

def all : List TextVariant := [normal, smallCaps]

end TextVariant

inductive TextDecoration where
  | none | underline | overline | underOverline | strikethrough | all
  deriving DecidableEq, Repr

namespace TextDecoration

def name : TextDecoration → String
  | none => "none"
  | underline => "underline"
  | overline => "overline"
  | underOverline => "under-overline"
  | strikethrough => "strikethrough"
  | all => "all"

def css : TextDecoration → String
  | none => "none"
  | underline => "underline"
  | overline => "overline"
  | underOverline => "underline overline"
  | strikethrough => "line-through"
  | all => "underline overline line-through"

def choices : List TextDecoration :=
  [none, underline, overline, underOverline, strikethrough, all]

end TextDecoration

inductive TextCase where
  | none | uppercase | lowercase | capitalize
  deriving DecidableEq, Repr

namespace TextCase

def name : TextCase → String
  | none => "none"
  | uppercase => "uppercase"
  | lowercase => "lowercase"
  | capitalize => "capitalize"

def all : List TextCase := [none, uppercase, lowercase, capitalize]

end TextCase

/-- The look of a stretch of text. What is missing stays as it is around it. -/
structure TextLook where
  size : Option TextSize := none
  weight : Option TextWeight := none
  style : Option TextStyle := none
  variant : Option TextVariant := none
  decoration : Option TextDecoration := none
  letterCase : Option TextCase := none
  color : Option String := none
  deriving DecidableEq, Repr

inductive PageCounterTarget where
  | current | total
  deriving DecidableEq, Repr

namespace PageCounterTarget

def name : PageCounterTarget → String
  | current => "current"
  | total => "total"

def all : List PageCounterTarget := [current, total]

end PageCounterTarget

/-- The alignment of a table column. -/
inductive Alignment where
  | left | center | right | default
  deriving DecidableEq, Repr

namespace Alignment

def name : Alignment → String
  | left => "Left"
  | center => "Center"
  | right => "Right"
  | default => "Default"

def all : List Alignment := [left, center, right, default]

/-- The value for a stylesheet, if there is anything to say. -/
def css? : Alignment → Option String
  | left => some "left"
  | center => some "center"
  | right => some "right"
  | default => none

end Alignment

inductive QuoteKind where
  | tip | note | warning | important
  deriving DecidableEq, Repr

namespace QuoteKind

/-- Also the class of the quote and the key of its label. -/
def name : QuoteKind → String
  | tip => "tip"
  | note => "note"
  | warning => "warning"
  | important => "important"

def all : List QuoteKind := [tip, note, warning, important]

end QuoteKind

inductive CalloutKind where
  | callout | tip | note | warning | error
  deriving DecidableEq, Repr

namespace CalloutKind

def name : CalloutKind → String
  | callout => "callout"
  | tip => "tip"
  | note => "note"
  | warning => "warning"
  | error => "error"

def all : List CalloutKind := [callout, tip, note, warning, error]

end CalloutKind

inductive MarginPosition where
  | topLeft | topCenter | topRight | bottomLeft | bottomCenter | bottomRight
  deriving DecidableEq, Repr

namespace MarginPosition

def name : MarginPosition → String
  | topLeft => "top-left"
  | topCenter => "top-center"
  | topRight => "top-right"
  | bottomLeft => "bottom-left"
  | bottomCenter => "bottom-center"
  | bottomRight => "bottom-right"

def all : List MarginPosition :=
  [topLeft, topCenter, topRight, bottomLeft, bottomCenter, bottomRight]

end MarginPosition

inductive TransitionStyle where
  | none | fade | slide | convex | concave | zoom
  deriving DecidableEq, Repr

namespace TransitionStyle

def name : TransitionStyle → String
  | none => "none"
  | fade => "fade"
  | slide => "slide"
  | convex => "convex"
  | concave => "concave"
  | zoom => "zoom"

def all : List TransitionStyle := [none, fade, slide, convex, concave, zoom]

end TransitionStyle

inductive TransitionSpeed where
  | default | fast | slow
  deriving DecidableEq, Repr

namespace TransitionSpeed

def name : TransitionSpeed → String
  | default => "default"
  | fast => "fast"
  | slow => "slow"

def all : List TransitionSpeed := [default, fast, slow]

end TransitionSpeed

structure Transition where
  style : TransitionStyle
  speed : TransitionSpeed := .default
  deriving DecidableEq, Repr

structure SlideSettings where
  centerVertically : Option Bool := none
  showControls : Option Bool := none
  transition : Option Transition := none
  deriving DecidableEq, Repr

structure ContainerStyle where
  fullWidth : Bool := false
  width : Option String := none
  height : Option String := none
  foregroundColor : Option String := none
  backgroundColor : Option String := none
  margin : Option String := none
  padding : Option String := none
  borderColor : Option String := none
  borderWidth : Option String := none
  cornerRadius : Option String := none
  textAlignment : Option String := none
  deriving DecidableEq, Repr

structure LinkTarget where
  url : String
  title : Option String := none
  deriving DecidableEq, Repr

structure LinkDefinition where
  label : String
  target : LinkTarget
  deriving DecidableEq, Repr

end Quire
