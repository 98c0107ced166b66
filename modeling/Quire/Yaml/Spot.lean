/-!
# Placed characters

The characters of a YAML text with their lines and columns. Line breaks are unified first: a
carriage return, with or without a line feed, and a next-line character become a line feed, while
the two Unicode separators stay. A NUL, which no text may hold, stands at the end.
-/

namespace Quire.Yaml

structure Spot where
  char : Char
  line : Nat
  column : Nat
  deriving DecidableEq, Repr, Inhabited

def isBlank (c : Char) : Bool := c == ' ' || c == '\t'
def isBreak (c : Char) : Bool := c == '\n' || c == '\u2028' || c == '\u2029'
def isEnd (c : Char) : Bool := c == '\x00'
def isBreakOrEnd (c : Char) : Bool := isBreak c || isEnd c
def isBlankOrEnd (c : Char) : Bool := isBlank c || isBreakOrEnd c

def isNameChar (c : Char) : Bool := c.isAlphanum || c == '-' || c == '_'

def isPrintable (c : Char) : Bool :=
  let n := c.toNat
  n == 0x09 || n == 0x0A || n == 0x0D || (0x20 ≤ n && n ≤ 0x7E) || n == 0x85 ||
    (0xA0 ≤ n && n ≤ 0xD7FF) || (0xE000 ≤ n && n ≤ 0xFFFD && n != 0xFEFF) || 0x10000 ≤ n

def unifyBreaks : List Char → List Char
  | '\r' :: '\n' :: rest => '\n' :: unifyBreaks rest
  | '\r' :: rest => '\n' :: unifyBreaks rest
  | '\u0085' :: rest => '\n' :: unifyBreaks rest
  | c :: rest => c :: unifyBreaks rest
  | [] => []

def place (line column : Nat) : List Char → List Spot
  | [] => [⟨'\x00', line, column⟩]
  | c :: rest =>
    ⟨c, line, column⟩ ::
      if isBreak c then place (line + 1) 0 rest else place line (column + 1) rest

/-- The spots of a text without its byte order mark. A character that is not allowed refuses the
whole text. -/
def spots? (text : String) : Option (List Spot) :=
  let cs := match text.toList with
    | '\ufeff' :: rest => rest
    | cs => cs
  if cs.all isPrintable then some (place 0 0 (unifyBreaks cs)) else none

/-- The character at a distance, NUL past the end. -/
def charAt (spots : List Spot) (i : Nat) : Char :=
  match spots[i]? with
  | some spot => spot.char
  | none => '\x00'

def dropBlanks (spots : List Spot) : List Spot := spots.dropWhile fun s => isBlank s.char

def dropLine (spots : List Spot) : List Spot := spots.dropWhile fun s => !isBreakOrEnd s.char

/-- `---` or `...` alone at the start of a line. -/
def isDocumentMark (mark : Char) (spots : List Spot) : Bool :=
  match spots with
  | a :: b :: c :: d :: _ =>
    a.column == 0 && a.char == mark && b.char == mark && c.char == mark && isBlankOrEnd d.char
  | _ => false

def isAnyDocumentMark (spots : List Spot) : Bool :=
  isDocumentMark '-' spots || isDocumentMark '.' spots

end Quire.Yaml
