import Quire.Yaml.Name
import Quire.Yaml.Token

/-!
# The tokens of a text

Tokens are read from left to right. A node that may turn out to be the key of a mapping is kept as
a candidate until a colon follows on the same line; then the key marker, and the start of the
mapping if its indentation is new, are put in front of it.
-/

namespace Quire.Yaml

/-- A node that a colon would make a key. One that stands where only a key can stand is
required to become one. -/
structure KeyCandidate where
  /-- The number of tokens before the node. -/
  place : Nat
  line : Nat
  column : Nat
  required : Bool
  deriving DecidableEq, Repr

structure Scan where
  rest : List Spot
  tokens : Array Token := #[]
  /-- The column of the innermost block collection, and those around it. -/
  indent : Int := -1
  outerIndents : List Int := []
  /-- Whether a key may start here. -/
  keyAllowed : Bool := true
  /-- The candidate of the innermost flow collection, and those around it up to the block level. -/
  candidate : Option KeyCandidate := none
  outerCandidates : List (Option KeyCandidate) := []
  deriving Repr

namespace Scan

def inFlow (scan : Scan) : Bool := !scan.outerCandidates.isEmpty

def char (scan : Scan) : Char := charAt scan.rest 0
def nextChar (scan : Scan) : Char := charAt scan.rest 1
def spot (scan : Scan) : Spot := scan.rest.headD default
def column (scan : Scan) : Int := scan.spot.column

def emit (scan : Scan) (token : Token) : Scan := { scan with tokens := scan.tokens.push token }

def insertAt (scan : Scan) (place : Nat) (token : Token) : Scan :=
  { scan with
    tokens := (scan.tokens.extract 0 place).push token ++ scan.tokens.extract place }

def skip (scan : Scan) (count : Nat) : Scan := { scan with rest := scan.rest.drop count }

def allowKey (scan : Scan) (allowed : Bool) : Scan := { scan with keyAllowed := allowed }

/-- Pass over blanks, comments and line breaks. A tab counts as a blank only where no key may
start, and outside of flow collections a new line allows a key. -/
def skipFiller (flow allowed comment : Bool) : List Spot → List Spot × Bool
  | [] => ([], allowed)
  | s :: rest =>
    if isBreak s.char then skipFiller flow (allowed || !flow) false rest
    else if comment && !isEnd s.char then skipFiller flow allowed true rest
    else if s.char == ' ' || (s.char == '\t' && (flow || !allowed)) then
      skipFiller flow allowed false rest
    else if s.char == '#' then skipFiller flow allowed true rest
    else (s :: rest, allowed)

/-- A key fits on one line and in 1024 characters. -/
def isStale (here : Spot) (candidate : KeyCandidate) : Bool :=
  candidate.line < here.line || candidate.column + 1024 < here.column

def dropStale (scan : Scan) : Option Scan :=
  let here := scan.spot
  let expired := (scan.candidate :: scan.outerCandidates).filterMap fun candidate =>
    candidate.filter (isStale here)
  if expired.any (·.required) then none
  else
    let live := fun (candidate : Option KeyCandidate) =>
      candidate.filter fun c => !isStale here c
    some
      { scan with
        candidate := live scan.candidate
        outerCandidates := scan.outerCandidates.map live }

def dropCandidate (scan : Scan) : Option Scan :=
  if scan.candidate.any (·.required) then none else some { scan with candidate := none }

def noteCandidate (scan : Scan) : Option Scan :=
  if scan.keyAllowed then do
    let here := scan.spot
    let required := !scan.inFlow && scan.indent == here.column
    let scan ← scan.dropCandidate
    pure
      { scan with candidate := some ⟨scan.tokens.size, here.line, here.column, required⟩ }
  else some scan

/-- Open a block collection at a column, if it is deeper than the innermost one. -/
def openBlock (scan : Scan) (column : Int) (place : Nat) (token : Token) : Scan :=
  if !scan.inFlow && scan.indent < column then
    let scan := scan.insertAt place token
    { scan with indent := column, outerIndents := scan.indent :: scan.outerIndents }
  else scan

def openBlockHere (scan : Scan) (token : Token) : Scan :=
  scan.openBlock scan.column scan.tokens.size token

def closeBlocksIn (column : Int) : Int → List Int → Array Token → Scan → Scan
  | indent, [], tokens, scan => { scan with indent := indent, outerIndents := [], tokens := tokens }
  | indent, outer :: rest, tokens, scan =>
    if column < indent then closeBlocksIn column outer rest (tokens.push .blockEnd) scan
    else { scan with indent := indent, outerIndents := outer :: rest, tokens := tokens }

def closeBlocks (scan : Scan) (column : Int) : Scan :=
  if scan.inFlow then scan
  else closeBlocksIn column scan.indent scan.outerIndents scan.tokens scan

/-- Before a directive or a document mark all blocks end. -/
def leaveDocument (scan : Scan) : Option Scan := do
  let scan ← (scan.closeBlocks (-1)).dropCandidate
  pure (scan.allowKey false)

def readTextEnd (scan : Scan) : Option Scan := do
  pure ((← scan.leaveDocument).emit .textEnd)

def readDirectiveLine (scan : Scan) : Option Scan := do
  let scan ← scan.leaveDocument
  let (directive, rest) ← readDirective (scan.rest.drop 1)
  let token := match directive with
    | .version major minor => Token.version major minor
    | .handle handle uri => .handle (String.ofList handle) (String.ofList uri)
  pure { scan.emit token with rest := rest }

def readDocumentMark (scan : Scan) (token : Token) : Option Scan := do
  pure (((← scan.leaveDocument).emit token).skip 3)

def openFlow (scan : Scan) (token : Token) : Option Scan := do
  let scan ← scan.noteCandidate
  let scan :=
    { scan with
      candidate := none, outerCandidates := scan.candidate :: scan.outerCandidates }
  pure (((scan.allowKey true).emit token).skip 1)

def closeFlow (scan : Scan) (token : Token) : Option Scan := do
  let scan ← scan.dropCandidate
  let scan := match scan.outerCandidates with
    | candidate :: outer => { scan with candidate := candidate, outerCandidates := outer }
    | [] => scan
  pure (((scan.allowKey false).emit token).skip 1)

def readFlowEntry (scan : Scan) : Option Scan := do
  pure ((((← scan.dropCandidate).allowKey true).emit .flowEntry).skip 1)

/-- An indicator that opens a block of its own, which it may do only where a key may start. -/
def startBlock (scan : Scan) (token : Token) : Option Scan :=
  if scan.inFlow then some scan
  else if scan.keyAllowed then some (scan.openBlockHere token)
  else none

def readBlockEntry (scan : Scan) : Option Scan := do
  let scan ← (← scan.startBlock .blockSequenceStart).dropCandidate
  pure (((scan.allowKey true).emit .blockEntry).skip 1)

def readKeyMark (scan : Scan) : Option Scan := do
  let scan ← (← scan.startBlock .blockMappingStart).dropCandidate
  pure (((scan.allowKey !scan.inFlow).emit .key).skip 1)

/-- A colon makes the candidate a key. -/
def readValueMark (scan : Scan) : Option Scan :=
  match scan.candidate with
  | some candidate =>
    let scan := scan.insertAt candidate.place .key
    let scan := scan.openBlock candidate.column candidate.place .blockMappingStart
    let scan := { scan with candidate := none }
    some (((scan.allowKey false).emit .value).skip 1)
  | none => do
    let scan ← scan.startBlock .blockMappingStart
    pure (((scan.allowKey !scan.inFlow).emit .value).skip 1)

def readAnchor (scan : Scan) (token : String → Token) : Option Scan := do
  let scan ← scan.noteCandidate
  let (name, rest) ← readAnchorName (scan.rest.drop 1)
  pure { (scan.allowKey false).emit (token name) with rest := rest }

def readTagMark (scan : Scan) : Option Scan := do
  let scan ← scan.noteCandidate
  let tag ← readTag scan.inFlow scan.rest
  let token := Token.tag (String.ofList tag.handle) (String.ofList tag.suffix)
  pure { (scan.allowKey false).emit token with rest := tag.rest }

def readBlockScalar (scan : Scan) (style : ScalarStyle) : Option Scan := do
  let scan ← scan.dropCandidate
  let read ← readBlock (style == .folded) scan.indent (scan.rest.drop 1)
  pure
    { (scan.allowKey true).emit (.scalar style (String.ofList read.text)) with rest := read.rest }

def readQuotedScalar (scan : Scan) (style : ScalarStyle) : Option Scan := do
  let scan ← scan.noteCandidate
  let read ← readQuoted (style == .singleQuoted) .text [] {} (scan.rest.drop 1)
  pure
    { (scan.allowKey false).emit (.scalar style (String.ofList read.text)) with
      rest := read.rest }

def readPlainScalar (scan : Scan) : Option Scan := do
  let scan ← scan.noteCandidate
  let read ← readPlain scan.inFlow (scan.indent + 1) [] false {} scan.rest
  pure
    { (scan.allowKey read.endsLine).emit (.scalar .plain (String.ofList read.text)) with
      rest := read.rest }

/-- Indicators that cannot start a plain scalar. -/
def isIndicator (c : Char) : Bool := "-?:,[]{}#&*!|>'\"%@`".toList.contains c

def startsPlain (scan : Scan) : Bool :=
  let c := scan.char
  let next := scan.nextChar
  (!isBlankOrEnd c && !isIndicator c) || (c == '-' && !isBlank next) ||
    (!scan.inFlow && (c == '?' || c == ':') && !isBlankOrEnd next)

def readToken (scan : Scan) : Option Scan :=
  let c := scan.char
  let next := scan.nextChar
  let marks := scan.inFlow || isBlankOrEnd next
  if isEnd c then scan.readTextEnd
  else if c == '%' && scan.spot.column == 0 then scan.readDirectiveLine
  else if isDocumentMark '-' scan.rest then scan.readDocumentMark .documentStart
  else if isDocumentMark '.' scan.rest then scan.readDocumentMark .documentEnd
  else if c == '[' then scan.openFlow .flowSequenceStart
  else if c == '{' then scan.openFlow .flowMappingStart
  else if c == ']' then scan.closeFlow .flowSequenceEnd
  else if c == '}' then scan.closeFlow .flowMappingEnd
  else if c == ',' then scan.readFlowEntry
  else if c == '-' && isBlankOrEnd next then scan.readBlockEntry
  else if c == '?' && marks then scan.readKeyMark
  else if c == ':' && marks then scan.readValueMark
  else if c == '*' then scan.readAnchor .alias
  else if c == '&' then scan.readAnchor .anchor
  else if c == '!' then scan.readTagMark
  else if c == '|' && !scan.inFlow then scan.readBlockScalar .literal
  else if c == '>' && !scan.inFlow then scan.readBlockScalar .folded
  else if c == '\'' then scan.readQuotedScalar .singleQuoted
  else if c == '"' then scan.readQuotedScalar .doubleQuoted
  else if scan.startsPlain then scan.readPlainScalar
  else none

/-- Move to the next token and settle what its position decides. -/
def advance (scan : Scan) : Option Scan :=
  let (rest, allowed) := skipFiller scan.inFlow scan.keyAllowed false scan.rest
  let scan := { scan with rest := rest, keyAllowed := allowed }
  scan.dropStale.map fun scan => scan.closeBlocks scan.column

/-- The tokens that are certain when a scan fails: those before the first candidate. -/
def certain (scan : Scan) : Array Token :=
  let places := (scan.candidate :: scan.outerCandidates).filterMap fun candidate =>
    candidate.map (·.place)
  scan.tokens.extract 0 (places.foldl min scan.tokens.size)

def run : Nat → Scan → Array Token
  | 0, scan => scan.certain
  | steps + 1, scan =>
    match scan.advance with
    | none => scan.certain
    | some scan =>
      match scan.readToken with
      | none => scan.certain
      | some after => if isEnd scan.char then after.tokens else run steps after

end Scan

/-- The tokens of a text. The last one is the end of the text, unless there is a fault. -/
def tokens (text : String) : List Token :=
  match spots? text with
  | some spots => (Scan.run (spots.length + 1) { rest := spots }).toList
  | none => []

end Quire.Yaml
