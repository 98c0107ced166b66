/-!
# Warnings

Problems of content that a render works around. They are collected and never stop it.
-/

namespace Quire

inductive WarningKind where
  /-- A link to a label that nothing defines. -/
  | unresolvedReference
  /-- A formula or diagram with nothing in it. -/
  | emptySource
  deriving DecidableEq, Repr

namespace WarningKind

def name : WarningKind → String
  | unresolvedReference => "unresolved-reference"
  | emptySource => "empty-source"

def all : List WarningKind := [unresolvedReference, emptySource]

end WarningKind

structure Warning where
  kind : WarningKind
  title : String
  detail : Option String := none
  deriving DecidableEq, Repr

namespace Warning

def unresolvedReference (label : String) : Warning :=
  { kind := .unresolvedReference
    title := "Unresolved reference '" ++ label ++ "'"
    detail := some "No link definition with this label exists in the document" }

def emptySource (node : String) : Warning :=
  { kind := .emptySource, title := "Empty " ++ node ++ " source" }

def text (warning : Warning) : String :=
  let head := "warning[" ++ warning.kind.name ++ "]: " ++ warning.title
  match warning.detail with
  | some detail => head ++ " (" ++ detail ++ ")"
  | none => head

end Warning
end Quire
