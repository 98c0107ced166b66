import Quire.Number.Text
import Quire.Yaml.Document

/-!
# YAML values

What nodes mean. A plain scalar is null, a boolean, a number or a text by its spelling; a quoted
one is a text unless its tag says otherwise.
-/

namespace Quire.Yaml

inductive Value where
  | null
  | bool (value : Bool)
  /-- A number that was written as a natural one. -/
  | natural (value : Nat)
  /-- An integer that was written with a minus sign. -/
  | negative (value : Int)
  | float (value : Binary64)
  | text (value : String)
  | sequence (items : List Value)
  | mapping (entries : List (Value × Value))
  deriving Repr, Inhabited

def isNull (text : String) : Bool := ["null", "Null", "NULL", "~"].contains text

def bool? (text : String) : Option Bool :=
  if ["true", "True", "TRUE"].contains text then some true
  else if ["false", "False", "FALSE"].contains text then some false
  else none

/-- The value of a letter or digit in a base, both cases alike. -/
def digitIn? (base : Nat) (c : Char) : Option Nat := do
  let digit ← if isDigit c then some (digitValue c) else (hexValue? c)
  if digit < base then some digit else none

def naturalIn? (base : Nat) (cs : List Char) : Option Nat :=
  if cs.isEmpty then none
  else cs.foldlM (fun n c => (digitIn? base c).map (base * n + ·)) 0

/-- A number with a mark of its base, and without one in base ten. -/
def markedNatural? : List Char → Option Nat
  | '0' :: 'x' :: rest => naturalIn? 16 rest
  | '0' :: 'o' :: rest => naturalIn? 8 rest
  | '0' :: 'b' :: rest => naturalIn? 2 rest
  | cs => naturalIn? 10 cs

/-- Digits with a needless zero in front, with or without a sign, are no number. -/
def isPadded (cs : List Char) : Bool :=
  let digits := match cs with
    | '-' :: rest => rest
    | '+' :: rest => rest
    | cs => cs
  1 < digits.length && digits.head? == some '0' && digits.all isDigit

/-- A natural number below a limit, with an optional plus sign. -/
def natural? (limit : Nat) (cs : List Char) : Option Nat := do
  let n ← markedNatural? (match cs with | '+' :: rest => rest | cs => cs)
  if isPadded cs || limit ≤ n then none else some n

/-- An integer with a minus sign that is not below a limit. -/
def negative? (limit : Nat) : List Char → Option Int
  | '-' :: rest => do
    let n ← markedNatural? rest
    if isPadded rest || limit < n then none else some (-(n : Int))
  | _ => none

/-- A finite decimal, or the spelling of an infinity or of what is not a number. -/
def float? (cs : List Char) : Option Binary64 :=
  let body := match cs with
    | '+' :: rest => rest
    | cs => cs
  let spelling := String.ofList cs
  let unsigned := String.ofList body
  if cs.head? == some '+' && (body.head? == some '+' || body.head? == some '-') then none
  else if [".inf", ".Inf", ".INF"].contains unsigned then some (.infinite false)
  else if ["-.inf", "-.Inf", "-.INF"].contains spelling then some (.infinite true)
  else if [".nan", ".NaN", ".NAN"].contains spelling then some .notANumber
  else match Binary64.read? body with
    | some (.finite negative significand exponent) =>
      some (.finite negative significand exponent)
    | _ => none

/-- The number behind a spelling, if it is one. Integers that fit 128 bits but not 64 are
refused. -/
inductive IntegerText where
  | value (value : Value)
  | tooLarge
  | other

def integerText (cs : List Char) : IntegerText :=
  match natural? (Nat.pow 2 64) cs, negative? (Nat.pow 2 63) cs with
  | some n, _ => .value (.natural n)
  | none, some i => .value (.negative i)
  | none, none =>
    if (natural? (Nat.pow 2 128) cs).isSome || (negative? (Nat.pow 2 127) cs).isSome then .tooLarge
    else .other

def plainValue (text : String) : Option Value :=
  if text.isEmpty || isNull text then some .null
  else match bool? text with
    | some b => some (.bool b)
    | none =>
      let cs := text.toList
      match integerText cs with
      | .value v => some v
      | .tooLarge => none
      | .other =>
        if isPadded cs then some (.text text)
        else some (((float? cs).map Value.float).getD (.text text))

def coreTag (name : String) : String := "tag:yaml.org,2002:" ++ name

def taggedValue (tag text : String) : Option Value :=
  if tag == coreTag "bool" then (bool? text).map .bool
  else if tag == coreTag "int" then
    match integerText text.toList with
    | .value v => some v
    | _ => none
  else if tag == coreTag "float" then (float? text.toList).map .float
  else if tag == coreTag "null" then if isNull text then some .null else none
  else some (.text text)

/-- Tags that start with `!` belong to applications and mean nothing here. -/
def isLocal (tag : Option String) : Bool :=
  tag.any fun tag => tag.toList.head? == some '!'

def scalarValue (tag : Option String) (style : ScalarStyle) (text : String) : Option Value :=
  match tag with
  | some tag => taggedValue tag text
  | none => if style == .plain then plainValue text else some (.text text)

mutual

/-- The value of a node. The number tells how many collections may still open. -/
def Node.value? (room : Nat) : Node → Option Value
  | .scalar tag style text => if isLocal tag then none else scalarValue tag style text
  | .sequence tag items =>
    if isLocal tag || room = 0 then none
    else (Node.values? (room - 1) items).map .sequence
  | .mapping tag entries =>
    if isLocal tag || room = 0 then none
    else (Node.entryValues? (room - 1) entries).map .mapping
  | .alias target => target.value? room
  | .cycle => none

def Node.values? (room : Nat) : List Node → Option (List Value)
  | [] => some []
  | node :: rest => do
    let value ← node.value? room
    pure (value :: (← Node.values? room rest))

def Node.entryValues? (room : Nat) : List (Node × Node) → Option (List (Value × Value))
  | [] => some []
  | (key, node) :: rest => do
    let key ← key.value? room
    let value ← node.value? room
    pure ((key, value) :: (← Node.entryValues? room rest))

end

def greatestNesting : Nat := 128

def Node.target : Node → Node
  | .alias target => target.target
  | node => node

def Node.text? (node : Node) : Option String :=
  match node.target with
  | .scalar _ _ text => some text
  | _ => none

end Quire.Yaml
