import Quire.Yaml.Scalar

/-!
# Names, tags and directives

The short forms that stand in front of nodes and documents.
-/

namespace Quire.Yaml

def splitName (spots : List Spot) : String × List Spot :=
  (String.ofList ((spots.takeWhile fun s => isNameChar s.char).map (·.char)),
    spots.dropWhile fun s => isNameChar s.char)

def endsAnchor (c : Char) : Bool :=
  isBlankOrEnd c || c == '?' || c == ':' || c == ',' || c == ']' || c == '}' || c == '%' ||
    c == '@' || c == '`'

def readAnchorName (spots : List Spot) : Option (String × List Spot) :=
  let (name, rest) := splitName spots
  if name.isEmpty || !endsAnchor (charAt rest 0) then none else some (name, rest)

/-- Characters of a tag or its handle. Inside angle brackets some more are allowed. -/
def isUriChar (verbatim : Bool) (c : Char) : Bool :=
  isNameChar c || ";/?:@&=+$.%!~*'()".toList.contains c || (verbatim && ",[]".toList.contains c)

/-- An octet as a percent sign and two hexadecimal digits. -/
def readOctet (spots : List Spot) : Option (Nat × List Spot) :=
  if charAt spots 0 == '%' then do
    let high ← hexValue? (charAt spots 1)
    let low ← hexValue? (charAt spots 2)
    pure (16 * high + low, spots.drop 3)
  else none

def readContinuation : Nat → Nat → List Spot → Option (Nat × List Spot)
  | 0, code, spots => some (code, spots)
  | count + 1, code, spots => do
    let (octet, rest) ← readOctet spots
    if octet / 64 = 2 then readContinuation count (64 * code + octet % 64) rest else none

def readEncoded (spots : List Spot) : Option (Char × List Spot) := do
  let (octet, rest) ← readOctet spots
  let (count, bits) ←
    if octet < 0x80 then some (0, octet)
    else if octet / 32 = 6 then some (1, octet % 32)
    else if octet / 16 = 14 then some (2, octet % 16)
    else if octet / 8 = 30 then some (3, octet % 8)
    else none
  let (code, rest) ← readContinuation count bits rest
  pure ((scalarValue? code).getD '\ufffd', rest)

def readUri (verbatim : Bool) : Nat → List Char → List Spot → Option (List Char × List Spot)
  | 0, done, spots => some (done.reverse, spots)
  | steps + 1, done, spots =>
    let c := charAt spots 0
    if !isUriChar verbatim c then some (done.reverse, spots)
    else if c == '%' then
      match readEncoded spots with
      | some (decoded, rest) => readUri verbatim steps (decoded :: done) rest
      | none => none
    else readUri verbatim steps (c :: done) (spots.drop 1)

def readUriAt (verbatim : Bool) (spots : List Spot) : Option (List Char × List Spot) :=
  readUri verbatim spots.length [] spots

/-- A handle: `!`, or `!` and a name, with a second `!` if there is one. -/
def readHandle (spots : List Spot) : Option (List Char × List Spot) :=
  if charAt spots 0 == '!' then
    let rest := spots.drop 1
    let name := (rest.takeWhile fun s => isNameChar s.char).map (·.char)
    let rest := rest.dropWhile fun s => isNameChar s.char
    if charAt rest 0 == '!' then some ('!' :: name ++ ['!'], rest.drop 1)
    else some ('!' :: name, rest)
  else none

structure TagParts where
  handle : List Char
  suffix : List Char
  rest : List Spot
  deriving DecidableEq, Repr

def readVerbatimTag (spots : List Spot) : Option TagParts := do
  let (uri, rest) ← readUriAt true (spots.drop 2)
  if uri.isEmpty || charAt rest 0 != '>' then none else pure ⟨[], uri, rest.drop 1⟩

/-- A tag with a handle, or a local tag, or the single `!`, which has an empty handle. -/
def readShorthandTag (spots : List Spot) : Option TagParts := do
  let (handle, rest) ← readHandle spots
  if 1 < handle.length && handle.getLast? == some '!' then
    let (suffix, rest) ← readUriAt false rest
    if suffix.isEmpty then none else pure ⟨handle, suffix, rest⟩
  else
    let (tail, rest) ← readUriAt false rest
    let suffix := handle.drop 1 ++ tail
    if suffix.isEmpty then pure ⟨[], ['!'], rest⟩ else pure ⟨['!'], suffix, rest⟩

def readTag (flow : Bool) (spots : List Spot) : Option TagParts := do
  let tag ← if charAt spots 1 == '<' then readVerbatimTag spots else readShorthandTag spots
  let next := charAt tag.rest 0
  if isBlankOrEnd next || (flow && next == ',') then pure tag else none

/-- A number of at most nine digits. -/
def readVersionNumber (spots : List Spot) : Option (Nat × List Spot) :=
  let digits := spots.takeWhile fun s => s.char.isDigit
  if digits.isEmpty || 9 < digits.length then none
  else some (digits.foldl (fun n s => 10 * n + (s.char.toNat - 48)) 0, spots.drop digits.length)

inductive Directive where
  | version (major minor : Nat)
  | handle (handle uri : List Char)
  deriving DecidableEq, Repr

def readVersion (spots : List Spot) : Option (Directive × List Spot) := do
  let (major, rest) ← readVersionNumber (dropBlanks spots)
  if charAt rest 0 != '.' then none
  else
    let (minor, rest) ← readVersionNumber (rest.drop 1)
    pure (.version major minor, rest)

def readHandleUri (spots : List Spot) : Option (Directive × List Spot) := do
  let (handle, rest) ← readHandle (dropBlanks spots)
  if (handle.getLast? != some '!') || !isBlank (charAt rest 0) then none
  else
    let (uri, rest) ← readUriAt true (dropBlanks rest)
    if uri.isEmpty || !isBlankOrEnd (charAt rest 0) then none
    else pure (.handle handle uri, rest)

def readDirective (spots : List Spot) : Option (Directive × List Spot) := do
  let (name, rest) := splitName spots
  if !isBlankOrEnd (charAt rest 0) then none
  else
    let (directive, rest) ←
      if name == "YAML" then readVersion rest
      else if name == "TAG" then readHandleUri rest
      else none
    let rest := dropBlanks rest
    let rest := if charAt rest 0 == '#' then dropLine rest else rest
    if !isBreakOrEnd (charAt rest 0) then none
    else pure (directive, if isBreak (charAt rest 0) then rest.drop 1 else rest)

end Quire.Yaml
