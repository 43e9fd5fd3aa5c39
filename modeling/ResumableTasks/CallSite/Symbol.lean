import ResumableTasks.CallSite
import ResumableTasks.Text.Decimal
/-!
Call sites from demangled symbols. A symbol is a path of segments between `::`; a segment may carry
generic arguments between angle brackets, the first one may be a qualified type `<T>` or
`<T as R>`, and a hash segment may end the whole. What stays is the module path and the routine.
-/
namespace ResumableTasks.Symbol

def colons : List Char := [':', ':']

def isHexDigit (c : Char) : Bool :=
  Text.isDigit c || ('a' ≤ c && c ≤ 'f') || ('A' ≤ c && c ≤ 'F')

def isHash : List Char → Bool
  | 'h' :: digits => digits.length = 16 && digits.all isHexDigit
  | _ => false

def dropHash (symbol : List Char) : List Char :=
  match Text.splitLast? colons symbol with
  | some (front, tail) => if isHash tail then front else symbol
  | none => symbol

/-- The text up to the angle bracket that closes `depth` open ones, and what follows it. -/
def splitQualifier? (depth : Nat) : List Char → Option (List Char × List Char)
  | [] => none
  | c :: cs =>
    if c = '>' ∧ depth ≤ 1 then some ([], cs)
    else
      let depth := if c = '<' then depth + 1 else if c = '>' then depth - 1 else depth
      (splitQualifier? depth cs).map fun (inside, rest) => (c :: inside, rest)

def dropColonsBack : List Char → List Char
  | ':' :: ':' :: rest => rest
  | kept => kept

/-- The reversed text outside angle brackets; `kept` is what stood before, `depth` counts the open
brackets. A closing bracket that closes nothing is kept. -/
def outsideGenerics (kept : List Char) (depth : Nat) : List Char → List Char
  | [] => kept
  | c :: cs =>
    if c = '<' then
      outsideGenerics (if depth = 0 then dropColonsBack kept else kept) (depth + 1) cs
    else if c = '>' ∧ 0 < depth then outsideGenerics kept (depth - 1) cs
    else if depth = 0 then outsideGenerics (c :: kept) 0 cs
    else outsideGenerics kept depth cs

def dropGenerics (path : List Char) : List Char := (outsideGenerics [] 0 path).reverse

def dropColons : List Char → List Char
  | ':' :: ':' :: rest => dropColons rest
  | path => path

def owner (qualifier : List Char) : List Char :=
  match Text.splitFirst? " as ".toList qualifier with
  -- The self type where it is a path, else the trait.
  | some (self, trait) => if Text.occurs colons (dropGenerics self) then self else trait
  | none => qualifier

def splitPath (path : List Char) : List Char × List Char :=
  match Text.splitLast? colons path with
  | some (path, routine) => (path, routine)
  | none => ([], path)

def parts (symbol : List Char) : List Char × List Char :=
  let symbol := dropHash symbol
  let qualified := match symbol with
    | '<' :: rest => splitQualifier? 1 rest
    | _ => none
  match qualified with
  | some (qualifier, rest) => (dropGenerics (owner qualifier), dropGenerics (dropColons rest))
  | none => splitPath (dropGenerics symbol)

end ResumableTasks.Symbol

namespace ResumableTasks

def CallSite.ofSymbol (symbol : String) : CallSite :=
  if symbol = "<unknown>" then { path := "", routine := symbol, native := true }
  else
    let (path, routine) := Symbol.parts symbol.toList
    { path := String.ofList path, routine := String.ofList routine }

theorem CallSite.ofSymbol_unplaced (symbol : String) :
    (ofSymbol symbol).file = none ∧ (ofSymbol symbol).line = none := by
  unfold ofSymbol
  split <;> exact ⟨rfl, rfl⟩

end ResumableTasks
