/-!
Unsigned decimal numbers as text: ASCII digits after at most one plus sign, within a limit.
-/
namespace ResumableTasks.Text

def isDigit (c : Char) : Bool := '0' ≤ c && c ≤ '9'

def digitValue (c : Char) : Nat := c.toNat - '0'.toNat

def decimalValue (digits : List Char) : Nat :=
  digits.foldl (fun n c => 10 * n + digitValue c) 0

def readDecimal? (limit : Nat) (cs : List Char) : Option Nat :=
  let digits := match cs with
    | '+' :: rest => rest
    | _ => cs
  if digits ≠ [] ∧ digits.all isDigit ∧ decimalValue digits < limit then
    some (decimalValue digits)
  else none

end ResumableTasks.Text
