import Quire.Yaml.Spot

/-!
# Scalars

The three ways to write a scalar: plain, quoted, and as an indented block. White space inside a
scalar is kept within a line; a single line break becomes a blank, and of several breaks all but
the first stay.
-/

namespace Quire.Yaml

/-- White space since the last visible character, newest first. A gap is `cut` when it starts with
an escaped line break, which leaves nothing behind. -/
structure Gap where
  blanks : List Char := []
  breaks : List Char := []
  cut : Bool := false
  deriving DecidableEq, Repr

namespace Gap

def isBroken (gap : Gap) : Bool := gap.cut || !gap.breaks.isEmpty

/-- Blanks count only before the first break. -/
def addBlank (gap : Gap) (c : Char) : Gap :=
  if gap.isBroken then gap else { gap with blanks := c :: gap.blanks }

def addBreak (gap : Gap) (c : Char) : Gap := { gap with blanks := [], breaks := c :: gap.breaks }

def text (gap : Gap) : List Char :=
  if gap.cut then gap.breaks.reverse
  else match gap.breaks.reverse with
    | [] => gap.blanks.reverse
    | ['\n'] => [' ']
    | '\n' :: others => others
    | breaks => breaks

end Gap

structure ReadScalar where
  text : List Char
  rest : List Spot
  /-- The scalar is followed by a line break that was passed over. -/
  endsLine : Bool := false
  deriving DecidableEq, Repr

def isFlowIndicator (c : Char) : Bool :=
  c == ',' || c == '[' || c == ']' || c == '{' || c == '}'

/-- A plain scalar. `indent` is the least column of its later lines, `done` the reversed text so far
and `fresh` tells that white space was passed since. -/
def readPlain (flow : Bool) (indent : Int) (done : List Char) (fresh : Bool) (gap : Gap) :
    List Spot → Option ReadScalar
  | [] => none
  | s :: rest =>
    let next := charAt rest 0
    let stop : Option ReadScalar := some ⟨done.reverse, s :: rest, gap.isBroken⟩
    if isEnd s.char then stop
    else if isBlank s.char then
      if gap.isBroken && s.column < indent && s.char == '\t' then none
      else readPlain flow indent done true (gap.addBlank s.char) rest
    else if isBreak s.char then readPlain flow indent done true (gap.addBreak s.char) rest
    else if fresh && ((!flow && s.column < indent) || s.char == '#') then stop
    else if isAnyDocumentMark (s :: rest) then stop
    else if flow && s.char == ':' && (isFlowIndicator next || next == '?') then none
    else if s.char == ':' && isBlankOrEnd next then stop
    else if flow && isFlowIndicator s.char then stop
    else readPlain flow indent (s.char :: (gap.text.reverse ++ done)) false {} rest

def escaped? : Char → Option Char
  | '0' => some '\x00'
  | 'a' => some '\x07'
  | 'b' => some '\x08'
  | 't' => some '\t'
  | '\t' => some '\t'
  | 'n' => some '\n'
  | 'v' => some '\x0b'
  | 'f' => some '\x0c'
  | 'r' => some '\r'
  | 'e' => some '\x1b'
  | ' ' => some ' '
  | '"' => some '"'
  | '/' => some '/'
  | '\\' => some '\\'
  | 'N' => some '\u0085'
  | '_' => some '\u00a0'
  | 'L' => some '\u2028'
  | 'P' => some '\u2029'
  | _ => none

/-- The number of hexadecimal digits behind an escape. -/
def codeLength? : Char → Option Nat
  | 'x' => some 2
  | 'u' => some 4
  | 'U' => some 8
  | _ => none

def hexValue? (c : Char) : Option Nat :=
  if c.isDigit then some (c.toNat - 48)
  else if 'a' ≤ c && c ≤ 'f' then some (c.toNat - 87)
  else if 'A' ≤ c && c ≤ 'F' then some (c.toNat - 55)
  else none

def scalarValue? (code : Nat) : Option Char :=
  if code.isValidChar then some (Char.ofNat code) else none

inductive QuoteState where
  | text
  /-- Behind the first of two single quotes. -/
  | doubled
  /-- Behind a backslash. -/
  | escape
  /-- Inside an escape, with the digits that are still to come and the number so far. -/
  | code (left value : Nat)
  deriving DecidableEq, Repr

/-- A quoted scalar behind its opening quote, with `done` and `gap` as for plain ones. -/
def readQuoted (single : Bool) (state : QuoteState) (done : List Char) (gap : Gap) :
    List Spot → Option ReadScalar
  | [] => none
  | s :: rest =>
    let c := s.char
    match state with
    | .doubled => readQuoted single .text ('\'' :: done) {} rest
    | .escape =>
      if isBreak c then readQuoted single .text done { cut := true } rest
      else match codeLength? c with
        | some length => readQuoted single (.code length 0) done {} rest
        | none =>
          match escaped? c with
          | some e => readQuoted single .text (e :: done) {} rest
          | none => none
    | .code left value =>
      match hexValue? c with
      | none => none
      | some digit =>
        let value := 16 * value + digit
        if left ≤ 1 then
          match scalarValue? value with
          | some e => readQuoted single .text (e :: done) {} rest
          | none => none
        else readQuoted single (.code (left - 1) value) done {} rest
    | .text =>
      if isEnd c || isAnyDocumentMark (s :: rest) then none
      else if isBlank c then readQuoted single .text done (gap.addBlank c) rest
      else if isBreak c then readQuoted single .text done (gap.addBreak c) rest
      else
        let done := gap.text.reverse ++ done
        if single && c == '\'' then
          if charAt rest 0 == '\'' then readQuoted single .doubled done {} rest
          else some { text := done.reverse, rest }
        else if !single && c == '"' then some { text := done.reverse, rest }
        else if !single && c == '\\' then readQuoted single .escape done {} rest
        else readQuoted single .text (c :: done) {} rest

/-- What becomes of the line breaks at the end of a block. -/
inductive Chomping where
  | strip | clip | keep
  deriving DecidableEq, Repr

structure BlockHeader where
  chomping : Chomping := .clip
  /-- An explicit indentation, zero where there is none. -/
  increment : Nat := 0
  deriving DecidableEq, Repr

def chomping? : Char → Option Chomping
  | '-' => some .strip
  | '+' => some .keep
  | _ => none

def increment? (c : Char) : Option Nat :=
  if '1' ≤ c && c ≤ '9' then some (c.toNat - 48) else none

/-- The header of a block behind its indicator: a chomping mark and an indentation in either order.
An indentation of zero is refused later, because it does not end the header. -/
def readHeader (spots : List Spot) : BlockHeader × List Spot :=
  match chomping? (charAt spots 0), increment? (charAt spots 0) with
  | some chomping, _ =>
    match increment? (charAt spots 1) with
    | some n => (⟨chomping, n⟩, spots.drop 2)
    | none => (⟨chomping, 0⟩, spots.drop 1)
  | none, some n =>
    match chomping? (charAt spots 1) with
    | some chomping => (⟨chomping, n⟩, spots.drop 2)
    | none => (⟨.clip, n⟩, spots.drop 1)
  | none, none => ({}, spots)

structure EmptyLines where
  /-- Their breaks, newest first. -/
  breaks : List Char
  /-- The greatest column that was reached. -/
  deepest : Nat
  rest : List Spot
  deriving DecidableEq, Repr

/-- Pass over indentation and empty lines. An `indent` of zero is not known yet and takes all
blanks. A tab in the indentation is refused. -/
def readEmptyLines (indent deepest : Nat) (breaks : List Char) : List Spot → Option EmptyLines
  | [] => none
  | s :: rest =>
    let inside := indent == 0 || s.column < indent
    if inside && s.char == ' ' then readEmptyLines indent deepest breaks rest
    else
      let deepest := max deepest s.column
      if inside && s.char == '\t' then none
      else if isBreak s.char then readEmptyLines indent deepest (s.char :: breaks) rest
      else some ⟨breaks, deepest, s :: rest⟩

/-- A block while it is read: its reversed text, the break that ended its last line, whether that
line started with a blank, and the breaks of the empty lines after it. -/
structure BlockText where
  done : List Char := []
  lastBreak : List Char := []
  startsBlank : Bool := false
  emptyBreaks : List Char := []
  deriving DecidableEq, Repr

namespace BlockText

/-- Add a line. In a folded block the break between two lines that do not start with a blank
becomes a blank, or vanishes before empty lines. -/
def addLine (block : BlockText) (folded : Bool) (line : List Char) (lineBreak : List Char) :
    BlockText :=
  let blank := isBlank (line.headD '\x00')
  let joint :=
    if folded && block.lastBreak == ['\n'] && !block.startsBlank && !blank then
      if block.emptyBreaks.isEmpty then [' '] else []
    else block.lastBreak
  { done := line.reverse ++ (block.emptyBreaks ++ (joint ++ block.done))
    lastBreak := lineBreak
    startsBlank := blank }

def finish (block : BlockText) : Chomping → List Char
  | .strip => block.done.reverse
  | .clip => (block.lastBreak ++ block.done).reverse
  | .keep => (block.emptyBreaks ++ (block.lastBreak ++ block.done)).reverse

end BlockText

def readLines (folded : Bool) (indent : Nat) :
    Nat → BlockText → List Spot → Option (BlockText × List Spot)
  | 0, block, spots => some (block, spots)
  | steps + 1, block, spots =>
    match spots with
    | [] => some (block, [])
    | s :: rest =>
      if s.column == indent && !isEnd s.char then
        let line := (s :: rest).takeWhile fun s => !isBreakOrEnd s.char
        let after := dropLine (s :: rest)
        let ending := charAt after 0
        let block :=
          block.addLine folded (line.map (·.char)) (if isBreak ending then [ending] else [])
        let after := if isBreak ending then after.drop 1 else after
        match readEmptyLines indent 0 [] after with
        | none => none
        | some empty =>
          readLines folded indent steps { block with emptyBreaks := empty.breaks } empty.rest
      else some (block, s :: rest)

/-- A block scalar behind its indicator. `parent` is the indentation around it. -/
def readBlock (folded : Bool) (parent : Int) (spots : List Spot) : Option ReadScalar := do
  let (header, rest) := readHeader spots
  let rest := dropBlanks rest
  let rest := if charAt rest 0 == '#' then dropLine rest else rest
  if !isBreakOrEnd (charAt rest 0) then none
  else
    let rest := if isBreak (charAt rest 0) then rest.drop 1 else rest
    let given := if header.increment = 0 then 0 else (max parent 0).toNat + header.increment
    let empty ← readEmptyLines given 0 [] rest
    let indent :=
      if given = 0 then max (max empty.deepest (parent + 1).toNat) 1 else given
    let (block, rest) ←
      readLines folded indent empty.rest.length { emptyBreaks := empty.breaks } empty.rest
    pure { text := block.finish header.chomping, rest }

end Quire.Yaml
