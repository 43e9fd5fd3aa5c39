import ResumableTasks.Settings.Toml.Reader
/-!
Numbers in a TOML document: integers of 64 bits, and floats, of which only the class counts. Single
underscores may stand between digits.
-/
namespace ResumableTasks.Toml

def moreDigits (base : Nat) : List Char → List Nat × List Char
  | [] => ([], [])
  | '_' :: c :: rest =>
    match digitOf? base c with
    | some digit => let more := moreDigits base rest; (digit :: more.1, more.2)
    | none => ([], '_' :: c :: rest)
  | c :: rest =>
    match digitOf? base c with
    | some digit => let more := moreDigits base rest; (digit :: more.1, more.2)
    | none => ([], c :: rest)

def digits? (base : Nat) : Reader (List Nat)
  | [] => none
  | c :: rest => do
    let digit ← digitOf? base c
    let more := moreDigits base rest
    return (digit :: more.1, more.2)

def splitSign : List Char → Bool × List Char
  | '+' :: rest => (false, rest)
  | '-' :: rest => (true, rest)
  | cs => (false, cs)

def wholePart? : Reader (List Nat) := fun cs => do
  match ← digits? 10 cs with
  | (0 :: _ :: _, _) => none
  | read => some read

def word? (n : Int) : Option Int :=
  if -9223372036854775808 ≤ n ∧ n ≤ 9223372036854775807 then some n else none

def basedInteger? (base : Nat) : Reader Int := fun cs => do
  let (digits, rest) ← digits? base cs
  return (← word? (valueOf base digits), rest)

def integer? : Reader Int
  | '0' :: 'x' :: rest => basedInteger? 16 rest
  | '0' :: 'o' :: rest => basedInteger? 8 rest
  | '0' :: 'b' :: rest => basedInteger? 2 rest
  | cs => do
    let (negative, cs) := splitSign cs
    let (digits, rest) ← wholePart? cs
    let n : Int := valueOf 10 digits
    return (← word? (if negative then -n else n), rest)

def fraction? : Reader (List Nat)
  | '.' :: rest => digits? 10 rest
  | _ => none

def exponent? : Reader Int
  | 'e' :: rest | 'E' :: rest => do
    let (negative, cs) := splitSign rest
    let (digits, rest) ← digits? 10 cs
    let n : Int := valueOf 10 digits
    return (if negative then -n else n, rest)
  | _ => none

/-- Whether the number `digits` times the power of ten rounds to infinity in double precision: it
does from halfway between the largest finite number and the next power of two on. -/
def overflows (digits : Nat) (power : Int) : Bool :=
  let bound := Nat.pow 2 1024 - Nat.pow 2 970
  let size := power + (Nat.toDigits 10 digits).length
  if digits = 0 || size < 300 then false
  else if 320 < size then true
  else if 0 ≤ power then bound ≤ digits * Nat.pow 10 power.toNat
  else bound * Nat.pow 10 (-power).toNat ≤ digits

def float? : Reader Unit := fun cs =>
  let (negative, cs) := splitSign cs
  match expect? "inf" cs, expect? "nan" cs with
  | some rest, _ | none, some rest => some ((), rest)
  | none, none => do
    let (whole, cs) ← wholePart? cs
    let (decimals, power, rest) ← match fraction? cs with
      | some (decimals, cs) =>
        match exponent? cs with
        | some (power, rest) => some (decimals, power, rest)
        | none => some (decimals, 0, cs)
      | none => (exponent? cs).map fun (power, rest) => ([], power, rest)
    -- A float too far below zero counts as minus infinity.
    if !negative && overflows (valueOf 10 (whole ++ decimals)) (power - decimals.length) then none
    else some ((), rest)

end ResumableTasks.Toml
