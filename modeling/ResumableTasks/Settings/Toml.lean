import ResumableTasks.Settings.Toml.Table
import ResumableTasks.Settings.Toml.Text
import ResumableTasks.Settings.Toml.Number
import ResumableTasks.Settings.Toml.Moment
/-!
Documents in TOML. A document is read line by line: a header opens a table, a key with its value
goes into the open table, and a value may run over several lines. Values nest less than eighty deep,
and a dotted key has fewer than eighty parts.
-/
namespace ResumableTasks.Toml

def nestingLimit : Nat := 80

def isKeyChar (c : Char) : Bool := c.isAlphanum || c = '_' || c = '-'

def keyPart? : Reader String := fun cs =>
  if cs.head? = some '"' || cs.head? = some '\'' then shortText? cs
  else
    let part := cs.takeWhile isKeyChar
    if part = [] then none else some (String.ofList part, cs.dropWhile isKeyChar)

def keyParts? : Nat → Reader Path
  | 0, _ => none
  | limit + 1, cs => do
    let (part, rest) ← keyPart? (skipSpaces cs)
    match skipSpaces rest with
    | '.' :: rest =>
      let (more, rest) ← keyParts? limit rest
      return (part :: more, rest)
    | rest => return ([part], rest)

def key? : Reader Path := keyParts? (nestingLimit - 1)

def elements? (element? : Reader Item) : Nat → List Item → Reader Item
  | 0, _, _ => none
  | fuel + 1, done, cs =>
    match skipLines cs.length cs with
    | ']' :: rest => some (.array done.reverse, rest)
    | cs => do
      let (item, rest) ← element? cs
      match skipLines rest.length rest with
      | ',' :: rest => elements? element? fuel (item :: done) rest
      | ']' :: rest => return (.array (item :: done).reverse, rest)
      | _ => none

def pairs? (value? : Reader Item) : Nat → Entries → Reader Item
  | 0, _, _ => none
  | fuel + 1, entries, cs => do
    let (key, rest) ← key? cs
    let (item, rest) ← value? (skipSpaces (← expect? "=" rest))
    let entries ← entries.set key item .inline
    match skipSpaces rest with
    | ',' :: rest => pairs? value? fuel entries rest
    | '\x7d' :: rest => return (.table .inline entries, rest)
    | _ => none

def figure? : Reader Item := fun cs =>
  match moment? cs, float? cs with
  | some ((), rest), _ => some (.moment, rest)
  | none, some ((), rest) => some (.float, rest)
  | none, none => (integer? cs).map fun (n, rest) => (.integer n, rest)

def scalar? : Reader Item := fun cs =>
  match expect? "true" cs, expect? "false" cs, text? cs with
  | some rest, _, _ => some (.boolean true, rest)
  | none, some rest, _ => some (.boolean false, rest)
  | none, none, some (s, rest) => some (.text s, rest)
  | none, none, none => figure? cs

/-- A value in which arrays and inline tables nest at most `depth` deep. -/
def item? : Nat → Reader Item
  | 0, cs => if cs.head? = some '[' || cs.head? = some '\x7b' then none else scalar? cs
  | depth + 1, cs =>
    match cs with
    | '[' :: rest => elements? (item? depth) (rest.length + 1) [] rest
    | '\x7b' :: rest =>
      match skipSpaces rest with
      | '\x7d' :: rest => some (.table .inline [], rest)
      | rest => pairs? (item? depth) (rest.length + 1) [] rest
    | _ => scalar? cs

/-- Reads one line: a header, a pair, a comment or nothing. A pair may run over several lines. -/
def line? (draft : Draft) (cs : List Char) : Option (Draft × List Char) := do
  match skipSpaces cs with
  | '[' :: '[' :: rest =>
    let (path, rest) ← key? rest
    return (← draft.openElement path, ← lineEnd? (← expect? "]]" rest))
  | '[' :: rest =>
    let (path, rest) ← key? rest
    return (← draft.openTable path, ← lineEnd? (← expect? "]" rest))
  | cs =>
    match lineEnd? cs with
    | some rest => return (draft, rest)
    | none =>
      let (key, rest) ← key? cs
      let (item, rest) ← item? (nestingLimit - 1) (skipSpaces (← expect? "=" rest))
      return (← draft.setKey key item, ← lineEnd? rest)

def lines? : Nat → Draft → List Char → Option Entries
  | _, draft, [] => some draft.entries
  | 0, _, _ => none
  | fuel + 1, draft, cs => do
    let (draft, rest) ← line? draft cs
    lines? fuel draft rest

def parse? (text : String) : Option Entries :=
  let cs := match text.toList with
    | '\uFEFF' :: rest => rest
    | cs => cs
  lines? (cs.length + 1) {} cs

end ResumableTasks.Toml
