/-!
# Paths

A path is a text with slashes between its steps. Its steps are read lexically, or one by one as a
way through directories.
-/

namespace Quire

inductive PathStep where
  | root
  | here
  | parent
  | segment (name : String)
  deriving DecidableEq, Repr

namespace Path

/-- The texts between slashes. There is always at least one. -/
def pieces : List Char → List (List Char)
  | [] => [[]]
  | c :: rest =>
    if c = '/' then [] :: pieces rest
    else match pieces rest with
      | [] => [[c]]
      | first :: others => (c :: first) :: others

/-- The step that a nonempty piece stands for. -/
def stepOf (piece : List Char) : PathStep :=
  if piece = ['.'] then .here
  else if piece = ['.', '.'] then .parent
  else .segment (String.ofList piece)

def isAbsolute (path : String) : Bool := path.toList.head? == some '/'

def hasTrailingSlash (path : String) : Bool := path.toList.getLast? == some '/'

/-- The steps of a path as written. Doubled and trailing slashes count for nothing. -/
def walk (path : String) : List PathStep :=
  let steps := ((pieces path.toList).filter (!·.isEmpty)).map stepOf
  if isAbsolute path then .root :: steps else steps

/-- The steps of a path up to spelling: `.` counts only at the start of a relative path. -/
def steps (path : String) : List PathStep :=
  match walk path with
  | [] => []
  | first :: rest => first :: rest.filter (· != .here)

/-- A path below a directory. An absolute path stays as it is. -/
def join (directory path : String) : String :=
  if isAbsolute path || directory.isEmpty then path
  else if hasTrailingSlash directory then directory ++ path
  else directory ++ "/" ++ path

def ofSteps : List PathStep → String
  | [] => ""
  | .root :: rest => "/" ++ ofSteps rest
  | [step] => stepText step
  | step :: rest => stepText step ++ "/" ++ ofSteps rest
where
  stepText : PathStep → String
    | .root => "/"
    | .here => "."
    | .parent => ".."
    | .segment name => name

/-- The path without its last step. The root and the empty path have none. -/
def parent? (path : String) : Option String :=
  match steps path with
  | [] => none
  | [.root] => none
  | steps => some (ofSteps steps.dropLast)

end Path
end Quire
