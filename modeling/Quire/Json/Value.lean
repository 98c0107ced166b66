import Quire.Number.Decimal

/-!
# JSON values

Values with their numbers as written and their members in order, and their text, compact or
indented. A string that cannot be decoded, because a surrogate stands alone in it, is kept apart,
and so is an object with such a name: a value that nobody looks at may hold one.
-/

namespace Quire

inductive Json where
  | null
  | bool (value : Bool)
  | number (literal : String)
  | string (text : String)
  | undecodable
  | array (items : List Json)
  | object (members : List (String × Json))
  deriving Repr, Inhabited

namespace Json

def ofNat (n : Nat) : Json := .number (decimal n)

def ofOption {α : Type} (f : α → Json) : Option α → Json
  | none => .null
  | some a => f a

def ofStrings (texts : List String) : Json := .array (texts.map .string)

/-- A member that is left out for a missing value. -/
def optionalMember {α : Type} (name : String) (f : α → Json) (value : Option α) :
    List (String × Json) :=
  (value.map fun a => (name, f a)).toList

/-- A digit of the lower-case hexadecimal notation. -/
def hexDigit (n : Nat) : Char :=
  if n < 10 then Char.ofNat (n + 48) else Char.ofNat (n + 87)

/-- Quotes, the backslash and control characters are escaped; all else stands for itself. -/
def escapeChar : Char → List Char
  | '"' => ['\\', '"']
  | '\\' => ['\\', '\\']
  | '\n' => ['\\', 'n']
  | '\r' => ['\\', 'r']
  | '\t' => ['\\', 't']
  | '\x08' => ['\\', 'b']
  | '\x0c' => ['\\', 'f']
  | c =>
    if c.toNat < 32 then
      ['\\', 'u', '0', '0', hexDigit (c.toNat / 16), hexDigit (c.toNat % 16)]
    else [c]

def quoted (text : String) : String :=
  String.ofList ('"' :: text.toList.flatMap escapeChar ++ ['"'])

/-- The text of a value without children. A string that cannot be decoded has no faithful text;
it is written as the replacement character. -/
def leafText : Json → String
  | .bool true => "true"
  | .bool false => "false"
  | .number literal => literal
  | .string text => quoted text
  | .undecodable => quoted "\ufffd"
  | _ => "null"

mutual

/-- The text without white space. -/
def compact : Json → String
  | .array items => "[" ++ compactItems "" items ++ "]"
  | .object members => "\x7b" ++ compactMembers "" members ++ "\x7d"
  | leaf => leaf.leafText

def compactItems (separator : String) : List Json → String
  | [] => ""
  | item :: rest => separator ++ item.compact ++ compactItems "," rest

def compactMembers (separator : String) : List (String × Json) → String
  | [] => ""
  | (name, value) :: rest =>
    separator ++ quoted name ++ ":" ++ value.compact ++ compactMembers "," rest

end

def lineAt (level : Nat) : String := String.ofList ('\n' :: List.replicate (2 * level) ' ')

mutual

/-- The text with one item or member a line, indented by two blanks a level. Empty collections
stay on one line. -/
def indented (level : Nat) : Json → String
  | .array [] => "[]"
  | .array (item :: rest) =>
    "[" ++ indentedItems (level + 1) "" (item :: rest) ++ lineAt level ++ "]"
  | .object [] => "\x7b\x7d"
  | .object (member :: rest) =>
    "\x7b" ++ indentedMembers (level + 1) "" (member :: rest) ++ lineAt level ++ "\x7d"
  | leaf => leaf.leafText

def indentedItems (level : Nat) (separator : String) : List Json → String
  | [] => ""
  | item :: rest =>
    separator ++ lineAt level ++ item.indented level ++ indentedItems level "," rest

def indentedMembers (level : Nat) (separator : String) : List (String × Json) → String
  | [] => ""
  | (name, value) :: rest =>
    separator ++ lineAt level ++ quoted name ++ ": " ++ value.indented level ++
      indentedMembers level "," rest

end

def pretty (json : Json) : String := json.indented 0

end Json
end Quire
