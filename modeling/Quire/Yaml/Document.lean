import Quire.Yaml.Node

/-!
# YAML documents

The first document of a text, and whether the text ends with it.
-/

namespace Quire.Yaml

/-- The first document. The root is missing where the text has no document at all. -/
structure FirstDocument where
  root : Option Node
  /-- Nothing but the end of the text follows. -/
  isOnly : Bool
  deriving Repr

/-- Directives in front of a document: at most one version, and handles without repetition. -/
structure Prologue where
  versioned : Bool := false
  handles : List (String × String) := []
  deriving DecidableEq, Repr

def defaultHandles : List (String × String) := [("!", "!"), ("!!", "tag:yaml.org,2002:")]

def readPrologue (prologue : Prologue) : List Token → Option (Prologue × List Token)
  | .version major minor :: rest =>
    if prologue.versioned || major != 1 || (minor != 1 && minor != 2) then none
    else readPrologue { prologue with versioned := true } rest
  | .handle handle uri :: rest =>
    if (prologue.handles.lookup handle).isSome then none
    else readPrologue { prologue with handles := prologue.handles ++ [(handle, uri)] } rest
  | rest => some (prologue, rest)

def endsDocument : Option Token → Bool
  | some .textEnd | some .documentStart | some .documentEnd => true
  | some (.version ..) | some (.handle ..) => true
  | _ => false

/-- How many aliases may be met for each event. -/
def jumpsPerEvent : Nat := 100

def isTextEnd (tokens : List Token) : Bool :=
  (tokens.dropWhile (· == .documentEnd)).head? == some .textEnd

def readRoot (handles : List (String × String)) (tokens : List Token) : Option FirstDocument := do
  let reading : Reading := { tokens, handles := handles ++ defaultHandles }
  let (root, reading) ← readNode (4 * tokens.length + 4) .block reading
  if jumpsPerEvent * reading.events < reading.jumps then none
  else pure ⟨some root, isTextEnd reading.tokens⟩

/-- Read the first document. Aliases that would make it many times larger than its text are
refused. -/
def firstDocument (text : String) : Option FirstDocument := do
  let start := tokens text
  let (prologue, rest) ← readPrologue {} start
  match rest with
  | .textEnd :: _ => if start == rest then pure ⟨none, true⟩ else none
  | .documentStart :: rest =>
    if rest.isEmpty then none
    else if endsDocument rest.head? then pure ⟨some emptyScalar, isTextEnd rest⟩
    else readRoot prologue.handles rest
  | _ => if start == rest then readRoot [] rest else none

end Quire.Yaml
