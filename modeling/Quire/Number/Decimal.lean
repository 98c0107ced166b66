/-!
# Decimal digits

Natural numbers as rows of digits, and back.
-/

namespace Quire

def isDigit (c : Char) : Bool := '0' ≤ c && c ≤ '9'

def digitValue (c : Char) : Nat := c.toNat - 48

def digitsValue (cs : List Char) : Nat := cs.foldl (fun n c => 10 * n + digitValue c) 0

def decimal (n : Nat) : String := String.ofList (Nat.toDigits 10 n)

end Quire
