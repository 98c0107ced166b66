import Quire.Text.Ranges

/-!
# White space

Characters with the property `White_Space`, and the cuts that they make in a text.
-/

namespace Quire.Text

def blankRanges : CodeRanges :=
  [(9, 13), (32, 32), (133, 133), (160, 160), (5760, 5760), (8192, 8202), (8232, 8233),
   (8239, 8239), (8287, 8287), (12288, 12288)]

def isBlank (c : Char) : Bool := blankRanges.contains c.toNat

def trim (cs : List Char) : List Char :=
  ((cs.dropWhile isBlank).reverse.dropWhile isBlank).reverse

/-- A run, kept in reverse while it is read, as a field if it is not empty. -/
def closeRun (run : List Char) : List (List Char) :=
  if run.isEmpty then [] else [run.reverse]

/-- The fields of the text `cs` that follows the reversed run `run`. -/
def fieldsAfter (separates : Char → Bool) (run : List Char) : List Char → List (List Char)
  | [] => closeRun run
  | c :: rest =>
    if separates c then closeRun run ++ fieldsAfter separates [] rest
    else fieldsAfter separates (c :: run) rest

/-- The maximal nonempty runs of characters that do not separate. -/
def fields (separates : Char → Bool) (cs : List Char) : List (List Char) :=
  fieldsAfter separates [] cs

/-- The fields between white space. -/
def words (cs : List Char) : List (List Char) := fields isBlank cs

end Quire.Text
