import Quire.Bundle.Resource
import Quire.Catalogue.Basic
import Quire.Storage.Disk

/-!
# Writing bundles

A bundle is first written whole into a staging directory next to its place, and moved there at the
end. What fails before leaves an earlier bundle as it was.
-/

namespace Quire

inductive WriteFailure where
  | load (failure : LoadFailure)
  | file (fault : FileFault)
  deriving DecidableEq, Repr

def WriteFailure.message : WriteFailure → String
  | load failure => failure.message
  | file fault => "IO error: " ++ fault.message

namespace Bundle

def stagingStem : String := ".folio-"

/-- What the bundle before is called while it waits to be removed. -/
def previousName : String := ".previous"

variable {m : Type → Type} [Monad m] [Disk m]

/-- An operation on files as a part of writing. -/
def perform {α : Type} (action : m (Except FileFault α)) : ExceptT WriteFailure m α :=
  ExceptT.mk do
    match ← action with
    | .ok a => pure (.ok a)
    | .error fault => pure (.error (.file fault))

def contentText (catalogue : Catalogue) : FileContent → Except WriteFailure String
  | .text content => .ok content
  | .entry path => (catalogue.load path).mapError .load

/-- Write a file. A name with slashes makes directories. -/
def writeFile (path text : String) : ExceptT WriteFailure m Unit := do
  perform (Disk.makeDirectories ((Path.parent? path).getD ""))
  perform (Disk.writeText path text)

mutual

def writeResource (catalogue : Catalogue) (directory : String) :
    Resource → ExceptT WriteFailure m Unit
  | .file name type content => do
    let text ← (liftExcept (contentText catalogue content) : ExceptT WriteFailure m String)
    writeFile (Path.join directory (Resource.file name type content).fileName) text
  | .group name members => do
    let path := Path.join directory name
    perform (Disk.makeDirectory path)
    writeMembers catalogue path members

def writeMembers (catalogue : Catalogue) (directory : String) :
    List Resource → ExceptT WriteFailure m Unit
  | [] => pure ()
  | member :: rest => do
    writeResource catalogue directory member
    writeMembers catalogue directory rest

end

/-- Move a staged entry to its place. What is there goes into the staging directory first, and comes
back if the move fails. -/
def publish (staging staged target : String) : ExceptT WriteFailure m Unit := do
  if ← (Disk.contains target : m Bool) then
    let previous := Path.join staging previousName
    perform (Disk.move target previous)
    match ← (Disk.move staged target : m (Except FileFault Unit)) with
    | .ok () => pure ()
    | .error fault =>
      perform (Disk.move previous target)
      throw (.file fault)
  else perform (Disk.move staged target)

def stage (catalogue : Catalogue) (resource : Resource) (out staging : String) :
    ExceptT WriteFailure m String := do
  writeResource catalogue staging resource
  let target := Path.join out resource.fileName
  publish staging (Path.join staging resource.fileName) target
  pure target

/-- Do something, and remove a directory whatever came of it. -/
def clearing {α : Type} (directory : String) (action : ExceptT WriteFailure m α) :
    ExceptT WriteFailure m α :=
  ExceptT.mk do
    let result ← action.run
    let _ ← Disk.removeTree directory
    pure result

/-- Write a resource into a directory, which is created if need be. The path of the resource is
returned. -/
def write (catalogue : Catalogue) (resource : Resource) (out : String) :
    ExceptT WriteFailure m String := do
  perform (Disk.makeDirectories out)
  let staging ← perform (Disk.makeFreshDirectory out stagingStem)
  clearing staging (stage catalogue resource out staging)

end Bundle
end Quire
