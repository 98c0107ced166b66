import Quire.Html.Fragment

/-!
# Tables of contents

Links to headings as lists that nest by depth.
-/

namespace Quire.Html

structure ContentsEntry where
  id : String
  depth : Nat
  text : String
  deriving DecidableEq, Repr

namespace ContentsEntry

def link (entry : ContentsEntry) : List Piece :=
  [.opening "li" [], .opening "a" [⟨"href", some ("#" ++ entry.id)⟩], .text entry.text,
   .closing "a"]

end ContentsEntry

/-- End the innermost list with its last item. -/
def closeList : List Piece := [.closing "li", .closing "ol", .text "\n"]

def closeLists (count : Nat) : List Piece := (List.replicate count closeList).flatten

/-- Continue the list at a depth, or open one inside the last item. -/
def startItem (depth : Nat) (depths : List Nat) : List Piece × List Nat :=
  if depths.head? = some depth then ([.closing "li", .text "\n"], depths)
  else ([.opening "ol" [], .text "\n"], depth :: depths)

/-- The lists of entries, where `depths` are those of the open lists from the innermost one on.
Lists deeper than an entry end before it. -/
def contentsFrom (depths : List Nat) : List ContentsEntry → List Piece
  | [] => closeLists depths.length
  | entry :: rest =>
    let closed := depths.takeWhile (entry.depth < ·)
    let kept := depths.dropWhile (entry.depth < ·)
    let (start, depths) := startItem entry.depth kept
    closeLists closed.length ++ start ++ entry.link ++ contentsFrom depths rest

def contents (entries : List ContentsEntry) : List Piece := contentsFrom [] entries

end Quire.Html
