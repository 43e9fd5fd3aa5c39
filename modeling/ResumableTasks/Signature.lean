/-!
Signatures of routines in a catalog, and the relation between a routine and its woven form, which
takes the frame stack as one more parameter at the end.
-/
namespace ResumableTasks

inductive Access where
  | everywhere | library | sameModule
  deriving DecidableEq, Repr, Inhabited

def Access.name : Access → String
  | .everywhere => "Public"
  | .library => "Crate"
  | .sameModule => "Private"

structure Signature where
  name : String
  params : List String := []
  access : Access := .everywhere
  effects : List String := []
  deriving DecidableEq, Repr

namespace Signature

def pausableEffect : String := "Pausable"

def frameStackParam : String := "weft::fiber::Fiber"

def hasEffect (s : Signature) (effect : String) : Bool := s.effects.contains effect

def isPausable (s : Signature) : Bool := s.hasEffect pausableEffect

/-- Equally many effects, and each one of the first list also stands in the second. -/
def sameEffects (a b : List String) : Bool := a.length == b.length && a.all b.contains

def isWovenPair (s woven : Signature) : Bool :=
  s.name = woven.name && s.access = woven.access && sameEffects s.effects woven.effects &&
    woven.params = s.params ++ [frameStackParam]

def display (s : Signature) : String :=
  s.name ++ "(" ++ ", ".intercalate s.params ++ ")" ++
    if s.effects = [] then "" else " [" ++ ", ".intercalate s.effects ++ "]"

end Signature

end ResumableTasks
