import ResumableTasks.Signature
import ResumableTasks.Error
/-!
The catalog of known routines: per module its routines in order of declaration, each with the lines
of its body where they are known, and whether bodies of the module can be looked up at all.
-/
namespace ResumableTasks

/-- An inclusive range of lines; it is empty if it ends before it starts. -/
structure LineRange where
  first : UInt32
  last : UInt32
  deriving DecidableEq, Repr

def LineRange.contains (r : LineRange) (line : UInt32) : Bool := r.first ≤ line && line ≤ r.last

structure CatalogEntry where
  signature : Signature
  lines : Option LineRange := none
  deriving DecidableEq, Repr

structure CatalogModule where
  entries : List CatalogEntry := []
  bodiesHidden : Bool := false
  deriving DecidableEq, Repr, Inhabited

structure Catalog where
  modules : List (String × CatalogModule) := []
  deriving DecidableEq, Repr, Inhabited

inductive Declaration where
  | knownModule (path : String)
  | routine (path : String) (signature : Signature) (lines : Option LineRange)
  | hideBodies (path : String)
  deriving DecidableEq, Repr

inductive CatalogError where
  | unknownModule (path : String)
  | bodiesHidden (path : String)
  deriving DecidableEq, Repr

def CatalogError.toError : CatalogError → Error
  | .unknownModule path =>
    { kind := .resolutionFailed, message := some ("module `" ++ path ++ "` is not in the catalog") }
  | .bodiesHidden path =>
    { kind := .resolutionFailed
      message := some ("no body descriptions for module `" ++ path ++ "`") }

namespace Catalog

def module? (c : Catalog) (path : String) : Option CatalogModule := c.modules.lookup path

def updateModule (path : String) (change : CatalogModule → CatalogModule) :
    List (String × CatalogModule) → List (String × CatalogModule)
  | [] => [(path, change {})]
  | (known, entry) :: rest =>
    if path = known then (known, change entry) :: rest
    else (known, entry) :: updateModule path change rest

def update (c : Catalog) (path : String) (change : CatalogModule → CatalogModule) : Catalog :=
  ⟨updateModule path change c.modules⟩

def declare (c : Catalog) : Declaration → Catalog
  | .knownModule path => c.update path id
  | .routine path signature lines =>
    c.update path fun m => { m with entries := m.entries ++ [⟨signature, lines⟩] }
  | .hideBodies path => c.update path fun m => { m with bodiesHidden := true }

def declareAll (c : Catalog) (declarations : List Declaration) : Catalog :=
  declarations.foldl declare c

def moduleCount (c : Catalog) : Nat := c.modules.length

/-- The routines of a module that share a name, in order of declaration. -/
def candidates (c : Catalog) (path name : String) : Except CatalogError (List Signature) :=
  match c.module? path with
  | none => .error (.unknownModule path)
  | some m => .ok ((m.entries.map CatalogEntry.signature).filter (·.name = name))

def locate (c : Catalog) (path : String) (line : UInt32) :
    Except CatalogError (Option Signature) :=
  match c.module? path with
  | none => .error (.unknownModule path)
  | some m =>
    if m.bodiesHidden then .error (.bodiesHidden path)
    else .ok ((m.entries.find? fun e => e.lines.any (·.contains line)).map CatalogEntry.signature)

end Catalog

end ResumableTasks
