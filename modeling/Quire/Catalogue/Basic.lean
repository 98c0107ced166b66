import Quire.Registry
import Quire.Storage.Fault

/-!
# Catalogues

Where templates, stylesheets and scripts come from: texts under paths.
-/

namespace Quire

inductive LoadFailure where
  | missing (path : String)
  | unreadable (fault : FileFault)
  deriving DecidableEq, Repr

def LoadFailure.message : LoadFailure → String
  | missing path =>
    "Resource '" ++ path ++ "' is referenced but not found in the resource catalogue"
  | unreadable fault => "IO error: " ++ fault.message

structure Catalogue where
  contains : String → Bool
  load : String → Except LoadFailure String

namespace Catalogue

/-- The entry that was found, or a failure that names the path. -/
def found (path : String) : Option String → Except LoadFailure String
  | some text => .ok text
  | none => .error (.missing path)

/-- A catalogue of texts under keys, which are compared as they are. -/
def ofRegistry (texts : Registry String) : Catalogue :=
  { contains := texts.contains, load := fun path => found path (texts.find? path) }

/-- Catalogues in order, of which the first one that contains a path gives its text. -/
def layered (layers : List Catalogue) : Catalogue :=
  { contains := fun path => layers.any (·.contains path)
    load := fun path =>
      match layers.find? (·.contains path) with
      | some layer => layer.load path
      | none => .error (.missing path) }

end Catalogue
end Quire
