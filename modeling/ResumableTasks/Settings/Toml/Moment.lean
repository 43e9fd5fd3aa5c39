import ResumableTasks.Settings.Toml.Reader
/-!
Dates and times in a TOML document: a date, a time of day, or a date and a time with or without its
offset. Only their form and ranges count.
-/
namespace ResumableTasks.Toml

def field? (count low high : Nat) : Reader Nat := fun cs => do
  let (digits, rest) ← fixedDigits? count cs
  let n := valueOf 10 digits
  if low ≤ n ∧ n ≤ high then some (n, rest) else none

def daysIn (year month : Nat) : Nat :=
  if month = 2 then
    if year % 4 = 0 ∧ (year % 100 ≠ 0 ∨ year % 400 = 0) then 29 else 28
  else if month ∈ [4, 6, 9, 11] then 30
  else 31

def date? (cs : List Char) : Option (List Char) := do
  let (year, cs) ← field? 4 0 9999 cs
  let (month, cs) ← field? 2 1 12 (← expect? "-" cs)
  let (_, cs) ← field? 2 1 (daysIn year month) (← expect? "-" cs)
  return cs

/-- Seconds may be sixty, for a leap second, and may have decimals. -/
def time? (cs : List Char) : Option (List Char) := do
  let (_, cs) ← field? 2 0 23 cs
  let (_, cs) ← field? 2 0 59 (← expect? ":" cs)
  let (_, cs) ← field? 2 0 60 (← expect? ":" cs)
  match cs with
  | '.' :: rest =>
    let decimals := rest.takeWhile Text.isDigit
    return if decimals = [] then cs else rest.dropWhile Text.isDigit
  | _ => return cs

def offset? : List Char → Option (List Char)
  | 'Z' :: rest | 'z' :: rest => some rest
  | '+' :: rest | '-' :: rest => do
    let (_, cs) ← field? 2 0 23 rest
    let (_, cs) ← field? 2 0 59 (← expect? ":" cs)
    return cs
  | _ => none

def timeAfter? : List Char → Option (List Char)
  | 'T' :: rest | 't' :: rest | ' ' :: rest => do
    let cs ← time? rest
    return (offset? cs).getD cs
  | _ => none

def moment? : Reader Unit := fun cs =>
  match date? cs with
  | some rest => some ((), (timeAfter? rest).getD rest)
  | none => (time? cs).map ((), ·)

end ResumableTasks.Toml
