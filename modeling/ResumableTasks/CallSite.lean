import ResumableTasks.Text.Split
/-!
Call sites: the module path and routine of a frame, with the position where it is known. One site is
the boundary at which a task enters its routine; generated and native frames are told apart so that
they are never counted. A trace lists the sites of a call stack, the innermost one first.
-/
namespace ResumableTasks

structure CallSite where
  path : String
  routine : String
  file : Option String := none
  line : Option UInt32 := none
  native : Bool := false
  deriving DecidableEq, Repr, Inhabited

namespace CallSite

/-- The site at which the run of a task enters its routine. -/
def boundary : CallSite := { path := "weft::task::Task", routine := "run" }

def generatedFile : String := "<generated>"

def isBoundary (s : CallSite) : Bool := s.path = boundary.path && s.routine = boundary.routine

def isGenerated (s : CallSite) : Bool :=
  s.file = some generatedFile || s.routine.toList.head? = some '\x7b' ||
    s.path.toList.contains '\x7b'

/-- The site at which a trace of the running stack is taken. -/
def isCapturePoint (s : CallSite) : Bool :=
  s.path = "weft::classify::site::CallTrace" && s.routine = "capture"

def knownLine (s : CallSite) : Option UInt32 := s.line.filter (· > 0)

def pathStartsWith (s : CallSite) (lead : String) : Bool :=
  match Text.stripLead? s.path.toList lead.toList with
  | some (c :: rest) =>
    match Text.stripLead? [':', ':'] (c :: rest) with
    | some routine => Text.hasLead routine s.routine.toList
    | none => false
  | _ => Text.hasLead lead.toList s.path.toList

def display (s : CallSite) : String :=
  s.path ++ "::" ++ s.routine ++
    if s.native then " (native)"
    else match s.file, s.line with
      | some file, some line => " (" ++ file ++ ":" ++ toString line ++ ")"
      | some file, none => " (" ++ file ++ ")"
      | none, some line => " (line " ++ toString line ++ ")"
      | none, none => ""

end CallSite

structure CallTrace where
  frames : List CallSite := []
  deriving DecidableEq, Repr, Inhabited

namespace CallTrace

def startingAt (point : CallSite) : CallTrace := ⟨[point]⟩

def push (t : CallTrace) (caller : CallSite) : CallTrace := ⟨t.frames ++ [caller]⟩

def size (t : CallTrace) : Nat := t.frames.length

def isEmpty (t : CallTrace) : Bool := t.frames.isEmpty

end CallTrace

end ResumableTasks
