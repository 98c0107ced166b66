import Quire.Text.Escape

/-!
# Pieces of markup

Markup as a row of tags and texts. Texts and the values of attributes are escaped when they are
written, so they cannot end what they stand in.
-/

namespace Quire.Html

/-- An attribute, which may be a name alone. -/
structure Attribute where
  name : String
  value : Option String := none
  deriving DecidableEq, Repr

namespace Attribute

def write : Attribute → String
  | ⟨name, some value⟩ => " " ++ name ++ "=\"" ++ Text.escapeMarkup value ++ "\""
  | ⟨name, none⟩ => " " ++ name

def writeAll (attributes : List Attribute) : String := String.join (attributes.map write)

def optional (name : String) (value : Option String) : List Attribute :=
  match value with
  | some value => [⟨name, some value⟩]
  | none => []

def declaration? : String × Option String → Option String
  | (property, some value) => some (property ++ ": " ++ value ++ ";")
  | (_, none) => none

/-- The declarations that have a value, as a style. None give no attribute. -/
def style (declarations : List (String × Option String)) : List Attribute :=
  match declarations.filterMap declaration? with
  | [] => []
  | found => [⟨"style", some (" ".intercalate found)⟩]

/-- The classes that are there. None give no attribute. -/
def classes (names : List (Option String)) : List Attribute :=
  match names.filterMap id with
  | [] => []
  | found => [⟨"class", some (" ".intercalate found)⟩]

end Attribute

inductive Piece where
  | text (content : String)
  | opening (name : String) (attributes : List Attribute)
  | closing (name : String)
  | selfClosing (name : String) (attributes : List Attribute)
  /-- A blank that no line is broken at. -/
  | fixedBlank
  /-- Script code of the library's own, which needs no escapes. -/
  | script (code : String)
  /-- Markup by the author, written as it stands. -/
  | verbatim (markup : String)
  deriving DecidableEq, Repr

namespace Piece

def write : Piece → String
  | text content => Text.escapeMarkup content
  | opening name attributes => "<" ++ name ++ Attribute.writeAll attributes ++ ">"
  | closing name => "</" ++ name ++ ">"
  | selfClosing name attributes => "<" ++ name ++ Attribute.writeAll attributes ++ " />"
  | fixedBlank => "&nbsp;"
  | script code => code
  | verbatim markup => markup

def writeAll (pieces : List Piece) : String := String.join (pieces.map write)

end Piece
end Quire.Html
