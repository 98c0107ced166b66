/-!
# Faults of storage

Why an operation on files or directories fails.
-/

namespace Quire

inductive FileFault where
  | notFound
  | notADirectory
  | isADirectory
  | alreadyExists
  | notEmpty
  | nameTooLong
  /-- The path holds a character that no path may hold. -/
  | badName
  /-- The content is no UTF-8. -/
  | notText
  /-- A directory cannot move below itself. -/
  | movesIntoItself
  /-- The path ends in a step that names no entry of its own. -/
  | busy
  /-- What a system reports beyond these. -/
  | other (text : String)
  deriving DecidableEq, Repr

def FileFault.message : FileFault → String
  | notFound => "No such file or directory (os error 2)"
  | notADirectory => "Not a directory (os error 20)"
  | isADirectory => "Is a directory (os error 21)"
  | alreadyExists => "File exists (os error 17)"
  | notEmpty => "Directory not empty (os error 39)"
  | nameTooLong => "File name too long (os error 36)"
  | badName => "file name contained an unexpected NUL byte"
  | notText => "stream did not contain valid UTF-8"
  | movesIntoItself => "Invalid argument (os error 22)"
  | busy => "Device or resource busy (os error 16)"
  | other text => text

end Quire
