/-!
# Themes

A theme has a colour scheme and a layout. Their names become parts of paths, so only plain names
are accepted.
-/

namespace Quire

inductive ThemePart where
  | layout | color
  deriving DecidableEq, Repr

namespace ThemePart

def name : ThemePart → String
  | layout => "layout"
  | color => "color"

end ThemePart

structure Theme where
  color : Option String := none
  layout : Option String := none
  deriving DecidableEq, Repr

structure RefusedTheme where
  part : ThemePart
  name : String
  deriving DecidableEq, Repr

def RefusedTheme.message (refused : RefusedTheme) : String :=
  "Invalid " ++ refused.part.name ++ " theme name '" ++ refused.name ++
    "': expected lowercase letters, digits and dashes"

namespace Theme

/-- Fill missing parts from another theme. -/
def orElse (theme fallback : Theme) : Theme :=
  { color := theme.color.or fallback.color, layout := theme.layout.or fallback.layout }

def builtin : Theme := { color := some "paperwhite", layout := some "latex" }

def isNameChar (c : Char) : Bool := ('a' ≤ c && c ≤ 'z') || ('0' ≤ c && c ≤ '9') || c == '-'

/-- A name of lowercase letters, digits and dashes. -/
def isName (name : String) : Bool := !name.toList.isEmpty && name.toList.all isNameChar

def checkPart (part : ThemePart) : Option String → Except RefusedTheme Unit
  | none => .ok ()
  | some name => if isName name then .ok () else .error ⟨part, name⟩

/-- Check the names of both parts, the layout first. -/
def check (theme : Theme) : Except RefusedTheme Unit := do
  checkPart .layout theme.layout
  checkPart .color theme.color

end Theme
end Quire
