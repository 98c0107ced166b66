/-!
# Escapes

Text inside markup and text inside a script string. Each is written one character at a time.
-/

namespace Quire.Text

/-- The five characters with a meaning in markup become entities. -/
def markupChar : Char → List Char
  | '&' => "&amp;".toList
  | '<' => "&lt;".toList
  | '>' => "&gt;".toList
  | '"' => "&quot;".toList
  | '\'' => "&#39;".toList
  | c => [c]

def escapeMarkup (s : String) : String := String.ofList (s.toList.flatMap markupChar)

/-- A digit of the upper-case hexadecimal notation. -/
def hexDigit (n : Nat) : Char :=
  if n < 10 then Char.ofNat (n + 48) else Char.ofNat (n + 55)

/-- Quotes, the backslash, the slash and control characters are escaped, so the text can stand
between quotes of either kind and cannot close the script element. -/
def scriptChar : Char → List Char
  | '"' => ['\\', '"']
  | '\'' => ['\\', '\'']
  | '\\' => ['\\', '\\']
  | '/' => ['\\', '/']
  | '\n' => ['\\', 'n']
  | '\r' => ['\\', 'r']
  | '\t' => ['\\', 't']
  | '\x08' => ['\\', 'b']
  | '\x0c' => ['\\', 'f']
  | c =>
    if c.toNat < 32 then
      ['\\', 'u', '0', '0', hexDigit (c.toNat / 16), hexDigit (c.toNat % 16)]
    else [c]

def escapeScript (s : String) : String := String.ofList (s.toList.flatMap scriptChar)

end Quire.Text
