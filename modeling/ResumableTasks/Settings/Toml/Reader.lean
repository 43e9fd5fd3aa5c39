import ResumableTasks.Text.Decimal
import ResumableTasks.Text.Split
/-!
The smallest parts of a TOML document: blanks, comments and line ends. A reader takes its part from
the front of the text and answers it with the rest, or fails.
-/
namespace ResumableTasks.Toml

abbrev Reader (α : Type) := List Char → Option (α × List Char)

def isPlain (c : Char) : Bool := c = '\t' || (0x20 ≤ c.toNat && c.toNat ≠ 0x7F)

def isSpace (c : Char) : Bool := c = ' ' || c = '\t'

def skipSpaces (cs : List Char) : List Char := cs.dropWhile isSpace

def skipComment : List Char → List Char
  | '#' :: rest => rest.dropWhile isPlain
  | cs => cs

def lineFeed? : List Char → Option (List Char)
  | '\n' :: rest => some rest
  | '\r' :: '\n' :: rest => some rest
  | _ => none

/-- The rest after the end of a line, or nothing after the end of the text. -/
def lineEnd? (cs : List Char) : Option (List Char) :=
  match skipComment (skipSpaces cs) with
  | [] => some []
  | rest => lineFeed? rest

def skipLines : Nat → List Char → List Char
  | 0, cs => cs
  | fuel + 1, cs =>
    let rest := skipComment (skipSpaces cs)
    match lineFeed? rest with
    | some next => skipLines fuel next
    | none => rest

def expect? (lead : String) (cs : List Char) : Option (List Char) := Text.stripLead? lead.toList cs

def digitOf? (base : Nat) (c : Char) : Option Nat :=
  let value :=
    if Text.isDigit c then some (Text.digitValue c)
    else if 'a' ≤ c && c ≤ 'f' then some (c.toNat - 'a'.toNat + 10)
    else if 'A' ≤ c && c ≤ 'F' then some (c.toNat - 'A'.toNat + 10)
    else none
  value.filter (· < base)

def valueOf (base : Nat) (digits : List Nat) : Nat := digits.foldl (fun n d => base * n + d) 0

def fixedDigits? : Nat → Reader (List Nat)
  | 0, cs => some ([], cs)
  | count + 1, c :: rest => do
    let digit ← digitOf? 10 c
    let (more, rest) ← fixedDigits? count rest
    return (digit :: more, rest)
  | _ + 1, [] => none

end ResumableTasks.Toml
