import Quire.Json.Value

/-!
# Records and choices in JSON

A record is an object with its fields in any order, where unknown members are skipped and a field
may come only once, or an array of the fields in their declared order. A choice is the name of an
alternative, or an object with that name and the content of the alternative.
-/

namespace Quire.Json

/-- The fields of a record, each one that is there. -/
structure Record where
  fields : List (String × Json)
  deriving Repr

namespace Record

def field? (record : Record) (name : String) : Option Json :=
  (record.fields.find? (·.1 == name)).map (·.2)

def required {α : Type} (record : Record) (name : String) (decode : Json → Option α) : Option α :=
  (record.field? name).bind decode

/-- A field that stands for a fixed value when it is missing. -/
def defaulted {α : Type} (record : Record) (name : String) (value : α)
    (decode : Json → Option α) : Option α :=
  match record.field? name with
  | none => some value
  | some json => decode json

/-- A field that may be missing or null. -/
def optional {α : Type} (record : Record) (name : String) (decode : Json → Option α) :
    Option (Option α) :=
  match record.field? name with
  | none => some none
  | some .null => some none
  | some json => (decode json).map some

end Record

def isDistinct : List String → Bool
  | [] => true
  | name :: rest => !rest.contains name && isDistinct rest

def record? (names : List String) : Json → Option Record
  | .object members =>
    let known := members.filter fun member => names.contains member.1
    if isDistinct (known.map (·.1)) then some ⟨known⟩ else none
  | .array items => if items.length ≤ names.length then some ⟨names.zip items⟩ else none
  | _ => none

/-- A choice among names alone, given as a name or as an object that holds null under the name.
The first argument tells how many containers may still open. -/
def plainChoice? {α : Type} (room : Nat) (all : List α) (name : α → String) :
    Json → Option α
  | .string text => all.find? (name · == text)
  | .object [(text, .null)] => if room = 0 then none else all.find? (name · == text)
  | _ => none

def text? : Json → Option String
  | .string text => some text
  | _ => none

def flag? : Json → Option Bool
  | .bool value => some value
  | _ => none

def natural? : Json → Option Nat
  | .number literal =>
    let digits := literal.toList
    if !digits.isEmpty && digits.all isDigit then some (digitsValue digits) else none
  | _ => none

def items? {α : Type} (decode : Json → Option α) : Json → Option (List α)
  | .array items => items.mapM decode
  | _ => none

end Quire.Json
