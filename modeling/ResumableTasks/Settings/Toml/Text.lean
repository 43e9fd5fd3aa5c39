import ResumableTasks.Settings.Toml.Reader
/-!
Quoted text in a TOML document. There are four forms: with escapes between double quotes, as it
stands between apostrophes, and either of them over several lines between tripled quotes.
-/
namespace ResumableTasks.Toml

structure TextForm where
  quote : Char
  escapes : Bool
  long : Bool

def hexChar? (count : Nat) (cs : List Char) : Option (Char × List Char) := do
  let digits ← (cs.take count).mapM (digitOf? 16)
  let n := valueOf 16 digits
  if digits.length = count ∧ n.isValidChar then some (Char.ofNat n, cs.drop count) else none

def escape? : Reader Char
  | 'b' :: rest => some ('\x08', rest)
  | 't' :: rest => some ('\t', rest)
  | 'n' :: rest => some ('\n', rest)
  | 'f' :: rest => some ('\x0c', rest)
  | 'r' :: rest => some ('\r', rest)
  | '"' :: rest => some ('"', rest)
  | '\\' :: rest => some ('\\', rest)
  | 'u' :: rest => hexChar? 4 rest
  | 'U' :: rest => hexChar? 8 rest
  | _ => none

def skipBlankLines : Nat → List Char → List Char
  | 0, cs => cs
  | fuel + 1, cs =>
    match lineFeed? (skipSpaces cs) with
    | some rest => skipBlankLines fuel rest
    | none => skipSpaces cs

def continuedLine? (cs : List Char) : Option (List Char) :=
  (lineFeed? (skipSpaces cs)).map (skipBlankLines cs.length)

namespace TextForm

/-- Reads up to the closing quotes; `done` is reversed. Before three closing quotes up to two more
belong to the text. -/
def body? (form : TextForm) : Nat → List Char → Reader String
  | 0, _, _ => none
  | _ + 1, _, [] => none
  | fuel + 1, done, c :: rest =>
    if c = form.quote then
      if form.long then
        let quotes := (c :: rest).takeWhile (· = c)
        let rest := (c :: rest).dropWhile (· = c)
        if quotes.length < 3 then body? form fuel (quotes ++ done) rest
        else if quotes.length ≤ 5 then
          some (String.ofList (quotes.drop 3 ++ done).reverse, rest)
        else none
      else some (String.ofList done.reverse, rest)
    else if form.escapes && c = '\\' then
      match if form.long then continuedLine? rest else none with
      | some rest => body? form fuel done rest
      | none =>
        match escape? rest with
        | some (c, rest) => body? form fuel (c :: done) rest
        | none => none
    else
      match if form.long then lineFeed? (c :: rest) else none with
      | some rest => body? form fuel ('\n' :: done) rest
      | none => if isPlain c then body? form fuel (c :: done) rest else none

def read? (form : TextForm) : Reader String := fun cs =>
  -- A line feed right after tripled quotes does not count.
  let cs := if form.long then (lineFeed? cs).getD cs else cs
  form.body? (cs.length + 1) [] cs

end TextForm

def shortText? : Reader String
  | '"' :: rest => TextForm.read? ⟨'"', true, false⟩ rest
  | '\'' :: rest => TextForm.read? ⟨'\'', false, false⟩ rest
  | _ => none

def text? : Reader String
  | '"' :: '"' :: '"' :: rest => TextForm.read? ⟨'"', true, true⟩ rest
  | '\'' :: '\'' :: '\'' :: rest => TextForm.read? ⟨'\'', false, true⟩ rest
  | cs => shortText? cs

end ResumableTasks.Toml
