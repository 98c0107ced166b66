import Quire.Text.Blank
import Quire.Text.Search

/-!
# Markers

The places of a template that are not plain text: scalars such as `[[TITLE]]`, and markers such as
`[[if:MATH]]` and `[[endfor:ROWS]]` that open or close a block.
-/

namespace Quire.Template

inductive BlockKind where
  | conditional | iterable
  deriving DecidableEq, Repr

inductive MarkerKind where
  | opening (block : BlockKind)
  | closing (block : BlockKind)
  deriving DecidableEq, Repr

namespace MarkerKind

def word : MarkerKind → String
  | opening .conditional => "if"
  | closing .conditional => "endif"
  | opening .iterable => "for"
  | closing .iterable => "endfor"

def all : List MarkerKind :=
  [opening .conditional, closing .conditional, opening .iterable, closing .iterable]

/-- The marker up to its key. -/
def start (kind : MarkerKind) : List Char := '[' :: '[' :: kind.word.toList ++ [':']

def withKey (kind : MarkerKind) (key : List Char) : List Char := kind.start ++ key ++ [']', ']']

end MarkerKind

def isKeyChar (c : Char) : Bool := c.isAlphanum || c == '_' || c == '-'

/-- The key that a text starts with, if it ends in closing brackets. -/
def keyAt? (cs : List Char) : Option (List Char) :=
  let key := cs.takeWhile isKeyChar
  if !key.isEmpty && [']', ']'].isPrefixOf (cs.dropWhile isKeyChar) then some key else none

def scalarAt? : List Char → Option (List Char)
  | '[' :: '[' :: rest => keyAt? rest
  | _ => none

/-- The key of a marker, which may be inverted by a `!` in front. -/
def markerKeyAt? : List Char → Option (List Char)
  | '!' :: rest => (keyAt? rest).map ('!' :: ·)
  | rest => keyAt? rest

def markerAt? (cs : List Char) : Option (MarkerKind × List Char) :=
  MarkerKind.all.findSome? fun kind =>
    if kind.start.isPrefixOf cs then
      (markerKeyAt? (cs.drop kind.start.length)).map fun key => (kind, key)
    else none

def firstMarker? : List Char → Option (MarkerKind × List Char)
  | [] => none
  | c :: rest =>
    match markerAt? (c :: rest) with
    | some found => some found
    | none => firstMarker? rest

/-- A character that stands for itself, or a scalar. -/
inductive Segment where
  | literal (c : Char)
  | scalar (key : String)
  deriving DecidableEq, Repr

/-- The segments of a text without its first `skip` characters. -/
def segmentsAfter : Nat → List Char → List Segment
  | _, [] => []
  | skip + 1, _ :: rest => segmentsAfter skip rest
  | 0, c :: rest =>
    match scalarAt? (c :: rest) with
    | some key => .scalar (String.ofList key) :: segmentsAfter (key.length + 3) rest
    | none => .literal c :: segmentsAfter 0 rest

def segments (cs : List Char) : List Segment := segmentsAfter 0 cs

/-- A block that was cut out of a text: its key, what it holds, and what follows it. -/
structure Cut where
  key : List Char
  inner : List Char
  rest : List Char
  deriving DecidableEq, Repr

/-- A key whose block has no end. -/
structure Unclosed where
  key : List Char
  deriving DecidableEq, Repr

/-- Cut a block out of the text behind the start of its opening marker. It ends at the first closing
marker with the same key. -/
def cutBlock (kind : BlockKind) (cs : List Char) : Except Unclosed Cut :=
  match Text.breakOn [']', ']'] cs with
  | none => .error ⟨cs.takeWhile fun c => !Text.isBlank c⟩
  | some (key, body) =>
    match Text.breakOn ((MarkerKind.closing kind).withKey key) body with
    | none => .error ⟨key⟩
    | some (inner, rest) => .ok ⟨key, inner, rest⟩

theorem length_of_cutBlock {kind : BlockKind} {cs : List Char} {cut : Cut}
    (h : cutBlock kind cs = .ok cut) :
    cut.inner.length + cut.rest.length ≤ cs.length := by
  unfold cutBlock at h
  split at h
  · simp at h
  · rename_i key body found
    split at h
    · simp at h
    · rename_i inner rest closed
      simp only [Except.ok.injEq] at h
      subst h
      have := Text.length_of_breakOn found
      have := Text.length_of_breakOn closed
      simp only at *
      omega

end Quire.Template
