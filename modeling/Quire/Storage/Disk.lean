import Quire.Number.Decimal
import Quire.Storage.Basic

/-!
# Disks

What a program asks of a file system. A storage answers as a state, so that whole runs are pure
functions.
-/

namespace Quire

class Disk (m : Type → Type) where
  readText : (path : String) → m (Except FileFault String)
  isDirectory : (path : String) → m Bool
  contains : (path : String) → m Bool
  makeDirectory : (path : String) → m (Except FileFault Unit)
  /-- Create a directory under a name that is not taken, which starts with the stem. Its path is
  returned. -/
  makeFreshDirectory : (parent stem : String) → m (Except FileFault String)
  writeText : (path text : String) → m (Except FileFault Unit)
  move : (source target : String) → m (Except FileFault Unit)
  removeTree : (path : String) → m (Except FileFault Unit)
  /-- A storage that agrees with the disk on these paths below a directory. -/
  snapshot : (directory : String) → (paths : List String) → m Storage

namespace Storage

/-- Do what succeeds and leave the storage alone otherwise. -/
def attempt (change : Storage → Except FileFault Storage) :
    StateM Storage (Except FileFault Unit) := fun storage =>
  match change storage with
  | .ok changed => (.ok (), changed)
  | .error fault => (.error fault, storage)

/-- The least number from `n` on that makes a free name. There are at most as many taken ones as
entries, which bounds the steps. -/
def freshNumber (storage : Storage) (parent : Address) (stem : String) : Nat → Nat → Nat
  | 0, n => n
  | steps + 1, n =>
    if (storage.node? (parent ++ [stem ++ decimal n])).isSome then
      storage.freshNumber parent stem steps (n + 1)
    else n

/-- What makes a free name out of a stem: the first drawn suffix that does, or else a number. -/
def freshSuffix (storage : Storage) (parent : Address) (stem : String) : String :=
  match storage.drawn.find? fun suffix => (storage.node? (parent ++ [stem ++ suffix.text])).isNone with
  | some suffix => suffix.text
  | none => decimal (storage.freshNumber parent stem storage.entries.length 0)

def makeFreshDirectory (storage : Storage) (parent stem : String) :
    Except FileFault String × Storage :=
  match storage.locate parent with
  | .error fault => (.error fault, storage)
  | .ok at_ =>
    let path := Path.join parent (stem ++ storage.freshSuffix at_ stem)
    match storage.makeDirectory path with
    | .error fault => (.error fault, storage)
    | .ok changed => (.ok path, changed)

instance : Disk (StateM Storage) where
  readText path := fun storage => (storage.readText path, storage)
  isDirectory path := fun storage => (storage.isDirectory path, storage)
  contains path := fun storage => (storage.contains path, storage)
  makeDirectory path := attempt (·.makeDirectory path)
  makeFreshDirectory parent stem := (·.makeFreshDirectory parent stem)
  writeText path text := attempt (·.writeBytes path text.toUTF8)
  move source target := attempt (·.move source target)
  removeTree path := attempt (·.removeTree path)
  snapshot _ _ := fun storage => (storage, storage)

end Storage

namespace Disk

variable {m : Type → Type} [Monad m] [Disk m]

/-- Create a directory, or make do with one that is there. -/
def ensureDirectory (path : String) : m (Except FileFault Unit) := do
  match ← makeDirectory path with
  | .ok () => pure (.ok ())
  | .error fault => if ← isDirectory path then pure (.ok ()) else pure (.error fault)

/-- Create a directory. Where the one above it is missing, create that one first, whose steps are
`above`, the last one first. -/
def makeBelow (path : String) : (above : List PathStep) → m (Except FileFault Unit)
  | [] => ensureDirectory path
  | step :: above => do
    match ← ensureDirectory path with
    | .error .notFound =>
      match ← makeBelow (Path.ofSteps (step :: above).reverse) above with
      | .error fault => pure (.error fault)
      | .ok () => ensureDirectory path
    | result => pure result

/-- Create a directory and all that it lies in. The empty path stands for the directory in which
relative paths start. -/
def makeDirectories (path : String) : m (Except FileFault Unit) :=
  if path.isEmpty then pure (.ok ()) else makeBelow path (Path.steps path).reverse.tail

end Disk
end Quire
