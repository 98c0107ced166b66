import Quire.Json.Value

/-!
# Reading JSON

One value with nothing but JSON white space around it. The reader is strict: no leading zeros, no
raw control characters, no unknown escapes.
-/

namespace Quire.Json

def isSpace (c : Char) : Bool := c == ' ' || c == '\n' || c == '\t' || c == '\r'

def skipSpace (cs : List Char) : List Char := cs.dropWhile isSpace

/-- What stands in a string: a character, or a UTF-16 unit written with its number. -/
inductive StringPart where
  | char (c : Char)
  | code (unit : Nat)
  deriving DecidableEq, Repr

def hexValue? (c : Char) : Option Nat :=
  if isDigit c then some (c.toNat - 48)
  else if 'a' ≤ c && c ≤ 'f' then some (c.toNat - 87)
  else if 'A' ≤ c && c ≤ 'F' then some (c.toNat - 55)
  else none

def unit? (a b c d : Char) : Option Nat := do
  pure (((← hexValue? a) * 16 + (← hexValue? b)) * 256 + (← hexValue? c) * 16 + (← hexValue? d))

def escaped? : Char → Option Char
  | '"' => some '"'
  | '\\' => some '\\'
  | '/' => some '/'
  | 'b' => some '\x08'
  | 'f' => some '\x0c'
  | 'n' => some '\n'
  | 'r' => some '\r'
  | 't' => some '\t'
  | _ => none

/-- The parts of a string up to its closing quote, after the reversed ones in `parts`. -/
def readParts (parts : List StringPart) : List Char → Option (List StringPart × List Char)
  | [] => none
  | '"' :: rest => some (parts.reverse, rest)
  | '\\' :: 'u' :: a :: b :: c :: d :: rest =>
    match unit? a b c d with
    | some unit => readParts (.code unit :: parts) rest
    | none => none
  | '\\' :: e :: rest =>
    match escaped? e with
    | some c => readParts (.char c :: parts) rest
    | none => none
  | c :: rest => if c.toNat < 32 || c = '\\' then none else readParts (.char c :: parts) rest

def isHighSurrogate (unit : Nat) : Bool := 0xD800 ≤ unit && unit ≤ 0xDBFF
def isLowSurrogate (unit : Nat) : Bool := 0xDC00 ≤ unit && unit ≤ 0xDFFF

/-- The characters of a string, where a high and a low surrogate in a row make one. A surrogate
that stands alone makes the string undecodable. `high` is a surrogate that waits for its low half,
and `chars` holds what came before, reversed. -/
def joinParts (high : Option Nat) (chars : List Char) : List StringPart → Option (List Char)
  | [] => if high.isSome then none else some chars.reverse
  | .char c :: rest => if high.isSome then none else joinParts none (c :: chars) rest
  | .code unit :: rest =>
    match high with
    | some first =>
      if isLowSurrogate unit then
        joinParts none
          (Char.ofNat (0x10000 + (first - 0xD800) * 0x400 + (unit - 0xDC00)) :: chars) rest
      else none
    | none =>
      if isHighSurrogate unit then joinParts (some unit) chars rest
      else if isLowSurrogate unit then none
      else joinParts none (Char.ofNat unit :: chars) rest

/-- A string behind its opening quote. -/
def readString (cs : List Char) : Option (Option String × List Char) := do
  let (parts, rest) ← readParts [] cs
  pure ((joinParts none [] parts).map String.ofList, rest)

/-- A nonempty row of digits. -/
def readDigits? (cs : List Char) : Option (List Char × List Char) :=
  let digits := cs.takeWhile isDigit
  if digits.isEmpty then none else some (digits, cs.dropWhile isDigit)

/-- Digits without a leading zero. -/
def readWhole? (cs : List Char) : Option (List Char × List Char) := do
  let (digits, rest) ← readDigits? cs
  if digits.head? == some '0' && 1 < digits.length then none else pure (digits, rest)

def readFraction? : List Char → Option (List Char × List Char)
  | '.' :: rest => do
    let (digits, rest) ← readDigits? rest
    pure ('.' :: digits, rest)
  | cs => some ([], cs)

def readPower? : List Char → Option (List Char × List Char)
  | [] => some ([], [])
  | mark :: rest =>
    if mark == 'e' || mark == 'E' then do
      let (sign, rest) := match rest with
        | '+' :: tail => (['+'], tail)
        | '-' :: tail => (['-'], tail)
        | _ => ([], rest)
      let (digits, rest) ← readDigits? rest
      pure (mark :: sign ++ digits, rest)
    else some ([], mark :: rest)

def readNumber? (cs : List Char) : Option (Json × List Char) := do
  let (sign, rest) := match cs with
    | '-' :: tail => (['-'], tail)
    | _ => ([], cs)
  let (whole, rest) ← readWhole? rest
  let (fraction, rest) ← readFraction? rest
  let (power, rest) ← readPower? rest
  pure (.number (String.ofList (sign ++ whole ++ fraction ++ power)), rest)

/-- The name of a member and its colon. A name that cannot be decoded reads as nothing. -/
def readName? : List Char → Option (Option String × List Char)
  | '"' :: rest => do
    let (name, rest) ← readString rest
    match skipSpace rest with
    | ':' :: rest => pure (name, rest)
    | _ => none
  | _ => none

/-- An object, which is undecodable as a whole when one of its names is. -/
def objectOf (members : List (Option String × Json)) : Json :=
  match members.mapM fun (name, value) => name.map (·, value) with
  | some members => .object members
  | none => .undecodable

mutual

/-- One value at the front of a text. The first argument bounds the steps. -/
def readValue : Nat → List Char → Option (Json × List Char)
  | 0, _ => none
  | steps + 1, cs =>
    match skipSpace cs with
    | 'n' :: 'u' :: 'l' :: 'l' :: rest => some (.null, rest)
    | 't' :: 'r' :: 'u' :: 'e' :: rest => some (.bool true, rest)
    | 'f' :: 'a' :: 'l' :: 's' :: 'e' :: rest => some (.bool false, rest)
    | '"' :: rest => do
      let (text, rest) ← readString rest
      pure ((text.map Json.string).getD .undecodable, rest)
    | '[' :: rest =>
      match skipSpace rest with
      | ']' :: rest => some (.array [], rest)
      | rest => readItems steps [] rest
    | '\x7b' :: rest =>
      match skipSpace rest with
      | '\x7d' :: rest => some (.object [], rest)
      | rest => readMembers steps [] rest
    | rest => readNumber? rest

/-- The items of an array from the next one on, after the reversed ones in `items`. -/
def readItems : Nat → List Json → List Char → Option (Json × List Char)
  | 0, _, _ => none
  | steps + 1, items, cs =>
    match readValue steps cs with
    | none => none
    | some (item, rest) =>
      match skipSpace rest with
      | ',' :: rest => readItems steps (item :: items) rest
      | ']' :: rest => some (.array (item :: items).reverse, rest)
      | _ => none

def readMembers : Nat → List (Option String × Json) → List Char → Option (Json × List Char)
  | 0, _, _ => none
  | steps + 1, members, cs =>
    match readName? (skipSpace cs) with
    | none => none
    | some (name, rest) =>
      match readValue steps rest with
      | none => none
      | some (value, rest) =>
        match skipSpace rest with
        | ',' :: rest => readMembers steps ((name, value) :: members) rest
        | '\x7d' :: rest => some (objectOf ((name, value) :: members).reverse, rest)
        | _ => none

end

/-- Read a text. Each container takes two steps before its first inner character. -/
def read? (text : String) : Option Json :=
  let cs := text.toList
  match readValue (2 * cs.length + 2) cs with
  | some (json, rest) => if (skipSpace rest).isEmpty then some json else none
  | none => none

end Quire.Json
