import Quire.Storage.Fault
import Quire.Storage.Path

/-!
# Storage

Files and directories as a finite map from addresses. Directories are entries of their own, and
the root is always there. Every operation happens whole or not at all.
-/

namespace Quire

/-- The names of the directories from the root, and the name of the entry itself. -/
abbrev Storage.Address := List String

inductive StorageNode where
  | file (bytes : ByteArray)
  | directory

def StorageNode.decEq : (a b : StorageNode) → Decidable (a = b)
  | .file ⟨x⟩, .file ⟨y⟩ =>
    if h : x = y then isTrue (h ▸ rfl) else isFalse (fun e => h (by injections))
  | .file _, .directory => isFalse (by simp)
  | .directory, .file _ => isFalse (by simp)
  | .directory, .directory => isTrue rfl

instance : DecidableEq StorageNode := StorageNode.decEq

/-- What tells the name of a fresh entry from others. It goes into one segment of a path. -/
structure Storage.Suffix where
  text : String
  noSlash : '/' ∉ text.toList
  noNul : '\x00' ∉ text.toList
  deriving DecidableEq

/-- `current` is the directory in which relative paths start, and `drawn` are the suffixes that are
tried first where a fresh name is needed. -/
structure Storage where
  entries : List (Storage.Address × StorageNode) := []
  current : Storage.Address := []
  drawn : List Storage.Suffix := []
  deriving DecidableEq

namespace Storage

def node? (storage : Storage) (at_ : Address) : Option StorageNode :=
  if at_.isEmpty then some .directory
  else (storage.entries.find? (·.1 == at_)).map (·.2)

/-- The longest name of an entry, in bytes. -/
def longestName : Nat := 255

/-- The longest path, in bytes. -/
def longestPath : Nat := 4095

/-- Take steps from an address. Every step starts in a directory; where the last one ends, there
need not be anything. -/
def follow (storage : Storage) (at_ : Address) : List PathStep → Except FileFault Address
  | [] => .ok at_
  | step :: rest =>
    match storage.node? at_, step with
    | none, _ => .error .notFound
    | some (.file _), _ => .error .notADirectory
    | some .directory, .root => storage.follow [] rest
    | some .directory, .here => storage.follow at_ rest
    | some .directory, .parent => storage.follow at_.dropLast rest
    | some .directory, .segment name =>
      if longestName < name.utf8ByteSize then .error .nameTooLong
      else storage.follow (at_ ++ [name]) rest

def locate (storage : Storage) (path : String) : Except FileFault Address :=
  if path.toList.contains '\x00' then .error .badName
  else if path.isEmpty then .error .notFound
  else if longestPath < path.utf8ByteSize then .error .nameTooLong
  else if Path.isAbsolute path then storage.follow [] (Path.walk path)
  else storage.follow storage.current (Path.walk path)

def find (storage : Storage) (path : String) : Except FileFault StorageNode := do
  match storage.node? (← storage.locate path) with
  | none => throw .notFound
  | some .directory => pure .directory
  | some (.file bytes) =>
    if Path.hasTrailingSlash path then throw .notADirectory else pure (.file bytes)

def isFile (storage : Storage) (path : String) : Bool :=
  match storage.find path with
  | .ok (.file _) => true
  | _ => false

def isDirectory (storage : Storage) (path : String) : Bool :=
  match storage.find path with
  | .ok .directory => true
  | _ => false

def contains (storage : Storage) (path : String) : Bool := (storage.find path).isOk

def readText (storage : Storage) (path : String) : Except FileFault String := do
  match ← storage.find path with
  | .directory => throw .isADirectory
  | .file bytes =>
    match String.fromUTF8? bytes with
    | some text => pure text
    | none => throw .notText

/-- Put an entry at an address, in the place of what was there. -/
def put (storage : Storage) (at_ : Address) (node : StorageNode) : Storage :=
  { storage with entries := storage.entries.filter (·.1 != at_) ++ [(at_, node)] }

def writeBytes (storage : Storage) (path : String) (bytes : ByteArray) :
    Except FileFault Storage := do
  let at_ ← storage.locate path
  match storage.node? at_ with
  | some .directory => throw .isADirectory
  | _ =>
    if Path.hasTrailingSlash path then throw .isADirectory
    else pure (storage.put at_ (.file bytes))

def makeDirectory (storage : Storage) (path : String) : Except FileFault Storage := do
  let at_ ← storage.locate path
  match storage.node? at_ with
  | some _ => throw .alreadyExists
  | none => pure (storage.put at_ .directory)

/-- Whether an address is another one or lies below it. -/
def isWithin (top at_ : Address) : Bool := top.isPrefixOf at_

def removeAt (storage : Storage) (top : Address) : Storage :=
  { storage with entries := storage.entries.filter fun e => !isWithin top e.1 }

def removeTree (storage : Storage) (path : String) : Except FileFault Storage := do
  let at_ ← storage.locate path
  match storage.node? at_ with
  | none => throw .notFound
  | some _ => pure (storage.removeAt at_)

def relocate (storage : Storage) (source target : Address) : Storage :=
  { storage with
    entries := storage.entries.map fun (at_, node) =>
      (if isWithin source at_ then target ++ at_.drop source.length else at_, node) }

/-- Whether the last step of a path names an entry. -/
def namesEntry (path : String) : Bool :=
  match (Path.walk path).getLast? with
  | some (.segment _) => true
  | _ => false

def isOccupied (storage : Storage) (top : Address) : Bool :=
  storage.entries.any fun e => isWithin top e.1 && e.1 != top

/-- Move an entry. A file takes the place of a file, and a directory that of an empty one. -/
def move (storage : Storage) (source target : String) : Except FileFault Storage := do
  let old ← storage.locate source
  let new ← storage.locate target
  if !namesEntry source || !namesEntry target then throw .busy
  match storage.node? old, storage.node? new with
  | none, _ => throw .notFound
  | some (.file _), some .directory => throw .isADirectory
  | some (.file _), _ =>
    if Path.hasTrailingSlash source || Path.hasTrailingSlash target then throw .notADirectory
    if old == new then pure storage
    else pure ((storage.removeAt new).relocate old new)
  | some .directory, some (.file _) => throw .notADirectory
  | some .directory, _ =>
    if old == new then pure storage
    else if isWithin old new then throw .movesIntoItself
    else if storage.isOccupied new then throw .notEmpty
    else pure ((storage.removeAt new).relocate old new)

end Storage
end Quire
