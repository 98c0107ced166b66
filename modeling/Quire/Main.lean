import Quire.Command.Run

/-!
# The program

The command line over the real file system.
-/

namespace Quire.Main

def faultOf (error : IO.Error) : FileFault :=
  match error with
  | .noFileOrDirectory .. => .notFound
  | .alreadyExists .. => .alreadyExists
  | .inappropriateType _ code _ => if code = 20 then .notADirectory else .isADirectory
  | .unsatisfiedConstraints .. => .notEmpty
  | .resourceBusy .. => .busy
  | error => .other (toString error)

def attempt {α : Type} (action : IO α) : IO (Except FileFault α) := do
  match ← action.toBaseIO with
  | .ok a => pure (.ok a)
  | .error error => pure (.error (faultOf error))

def readBytes (path : String) : IO (Except FileFault ByteArray) :=
  attempt (IO.FS.readBinFile path)

def readText (path : String) : IO (Except FileFault String) := do
  match ← readBytes path with
  | .error fault => pure (.error fault)
  | .ok bytes =>
    match String.fromUTF8? bytes with
    | some text => pure (.ok text)
    | none => pure (.error .notText)

/-- Directories cannot be read as files, and say so. -/
def isDirectory (path : String) : IO Bool := do
  match ← readBytes path with
  | .error .isADirectory => pure true
  | _ => pure false

def contains (path : String) : IO Bool := do
  match ← readBytes path with
  | .error .isADirectory => pure true
  | .error _ => pure false
  | .ok _ => pure true

def makeFreshDirectory (parent stem : String) (number : Nat) : Nat → IO (Except FileFault String)
  | 0 => pure (.error .alreadyExists)
  | tries + 1 => do
    let path := Path.join parent (stem ++ decimal number)
    match ← attempt (IO.FS.createDir path) with
    | .ok () => pure (.ok path)
    | .error .alreadyExists => makeFreshDirectory parent stem (number + 1) tries
    | .error fault => pure (.error fault)

/-- Put a file into a storage under a path, with the directories above it. -/
def store (storage : Storage) (path : String) (bytes : ByteArray) : Storage :=
  let (_, storage) := (Disk.makeDirectories ((Path.parent? path).getD "") :
    StateM Storage (Except FileFault Unit)).run storage
  match storage.writeBytes path bytes with
  | .ok changed => changed
  | .error _ => storage

def snapshot (directory : String) : List String → IO Storage
  | [] => pure {}
  | path :: rest => do
    let storage ← snapshot directory rest
    let file := Path.join directory path
    match ← readBytes file with
    | .ok bytes => pure (store storage file bytes)
    | .error _ => pure storage

instance : Disk IO where
  readText := readText
  isDirectory := isDirectory
  contains := contains
  makeDirectory path := attempt (IO.FS.createDir path)
  makeFreshDirectory parent stem := do
    makeFreshDirectory parent stem (← IO.monoNanosNow) 1000
  writeText path text := attempt (IO.FS.writeFile path text)
  move source target := attempt (IO.FS.rename source target)
  removeTree path := attempt (IO.FS.removeDirAll path)
  snapshot := snapshot

end Quire.Main

def main (words : List String) : IO UInt32 := do
  let outcome : Quire.Command.Outcome ← Quire.Command.run words
  IO.eprint outcome.stderr
  IO.print outcome.stdout
  pure outcome.exit.toUInt32
