import Quire.Catalogue.Basic
import Quire.Storage.Basic

/-!
# Directories as catalogues

The files below a directory. Paths that could lead out of it are missing entries.
-/

namespace Quire.Catalogue

def isSegment : PathStep → Bool
  | .segment _ => true
  | _ => false

/-- The file that a path means, if it consists of names alone. -/
def fileBelow? (root path : String) : Option String :=
  if (Path.steps path).all isSegment then some (Path.join root path) else none

/-- The text of a file for an entry. That there is no file makes the entry missing. -/
def loadFile (storage : Storage) (path file : String) : Except LoadFailure String :=
  match storage.readText file with
  | .ok text => .ok text
  | .error .notFound => .error (.missing path)
  | .error fault => .error (.unreadable fault)

def directory (storage : Storage) (root : String) : Catalogue :=
  { contains := fun path =>
      match fileBelow? root path with
      | some file => storage.isFile file
      | none => false
    load := fun path =>
      match fileBelow? root path with
      | some file => loadFile storage path file
      | none => .error (.missing path) }

end Quire.Catalogue
