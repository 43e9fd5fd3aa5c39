/-!
The tables of a TOML document, and how headers and keys may add to them. A table is defined once:
by its header, by dotted keys, or inline. A header may still define a table that other headers only
named on the way to their own, and dotted keys may pass through such a table, but not set a key in
it.
-/
namespace ResumableTasks.Toml

abbrev Path := List String

/-- How a table came to be: by its header, on the way to the table of another header, by a dotted
key, or inline. -/
inductive TableKind where
  | headed | passed | dotted | inline
  deriving DecidableEq, Repr

inductive Item where
  | text (s : String)
  | integer (n : Int)
  -- No setting takes a float or a point in time, so nothing is kept of them.
  | float
  | moment
  | boolean (b : Bool)
  | array (items : List Item)
  | table (kind : TableKind) (entries : List (String × Item))
  -- Elements with headers of their own.
  | tables (elements : List (List (String × Item)))

abbrev Entries := List (String × Item)

namespace Entries

def put (key : String) (item : Item) : Entries → Entries
  | [] => [(key, item)]
  | (known, old) :: rest =>
    if known = key then (key, item) :: rest else (known, old) :: put key item rest

/-- Changes the table at a path, making the tables that are not there yet. Of an array of tables the
last element counts. Dotted keys do not lead through a table that has its own header, and nothing
leads through an inline table. -/
def within (dotted : Bool) (change : TableKind → Entries → Option Entries) :
    Path → TableKind → Entries → Option Entries
  | [], kind, entries => change kind entries
  | key :: rest, _, entries => do
    let item ← match entries.lookup key with
      | none =>
        let kind := if dotted then .dotted else .passed
        (within dotted change rest kind []).map (Item.table kind)
      | some (.table kind inner) =>
        if kind = .inline || (dotted && kind = .headed) then none
        else (within dotted change rest kind inner).map (Item.table kind)
      | some (.tables elements) =>
        (within dotted change rest .headed (elements.getLastD [])).map fun last =>
          Item.tables (elements.dropLast ++ [last])
      | some _ => none
    return put key item entries

def add (viaDots : Bool) (key : String) (item : Item) (kind : TableKind) (entries : Entries) :
    Option Entries :=
  -- Only dotted keys extend a table made by dotted keys, and they extend no other.
  if viaDots != (kind == .dotted) || (entries.lookup key).isSome then none
  else some (put key item entries)

def set (key : Path) (item : Item) (kind : TableKind) (entries : Entries) : Option Entries :=
  let lead := key.dropLast
  within true (add (!lead.isEmpty) (key.getLastD "") item) lead kind entries

end Entries

structure Draft where
  entries : Entries := []
  openPath : Path := []

namespace Draft

def openAt (path : Path) (define : Option Item → Option Item) (d : Draft) : Option Draft := do
  let change (_ : TableKind) (entries : Entries) : Option Entries := do
    let key := path.getLastD ""
    let item ← define (entries.lookup key)
    return Entries.put key item entries
  let entries ← Entries.within false change path.dropLast .headed d.entries
  return ⟨entries, path⟩

def openTable (path : Path) : Draft → Option Draft :=
  openAt path fun
    | none => some (.table .headed [])
    | some (.table .passed entries) => some (.table .headed entries)
    | some _ => none

def openElement (path : Path) : Draft → Option Draft :=
  openAt path fun
    | none => some (.tables [[]])
    | some (.tables elements) => some (.tables (elements ++ [[]]))
    | some _ => none

def setKey (key : Path) (item : Item) (d : Draft) : Option Draft := do
  let entries ← Entries.within false (Entries.set key item) d.openPath .headed d.entries
  return { d with entries }

end Draft

end ResumableTasks.Toml
