import ResumableTasks.Value
import ResumableTasks.Error
/-!
The frame stack that stands in for a native call stack across suspensions.

A stack holds one slot per depth. A slot is empty, a pause sentinel (the frame of the primitive that
suspended), or captured state: a resume marker and the locals of the frame. One re-entry of a task
runs from `begin` to `finish`; inside it every nested call is entered and left in stack discipline.
While a suspension unwinds, `leave` tells each caller whether it still has to capture its own
locals. While it rewinds, `enter` shows the marker of the frame that is entered again.

An operation either yields the changed stack or a fault. A misuse is a broken calling discipline; a
frame error is a difference between what was recorded and what the routine expects. A fault leaves
no changed stack behind.
-/
namespace ResumableTasks

def freshMarker : UInt32 := 0

def pauseMarker : UInt32 := 0xFFFFFFFF

inductive Captured (ρ : Type) where
  | value (v : Value)
  | routine (r : ρ)
  deriving DecidableEq, Repr

inductive CapturedType where
  | value (type : ValueType)
  | routine
  deriving DecidableEq, Repr

def CapturedType.name : CapturedType → String
  | .value type => type.name
  | .routine => "alloc::boxed::Box<dyn weft::task::Routine>"

def Captured.type {ρ : Type} : Captured ρ → CapturedType
  | .value v => .value v.type
  | .routine _ => .routine

/-- What a frame expects to find captured: a type by name, and how to take its content. -/
structure Expectation (ρ α : Type) where
  name : String
  read : Captured ρ → Option α

namespace Expectation

variable {ρ : Type}

def value (type : ValueType) : Expectation ρ Value where
  name := type.name
  read
    | .value v => v.as? type
    | .routine _ => none

def routine : Expectation ρ ρ where
  name := CapturedType.routine.name
  read
    | .value _ => none
    | .routine r => some r

def captured (type : CapturedType) : Expectation ρ (Captured ρ) where
  name := type.name
  read content := if content.type = type then some content else none

end Expectation

inductive Slot (ρ : Type) where
  | pause
  | saved (marker : UInt32) (state : Captured ρ)
  deriving DecidableEq, Repr

namespace Slot

variable {ρ : Type}

def marker : Slot ρ → UInt32
  | .pause => pauseMarker
  | .saved marker _ => marker

def isSaved : Slot ρ → Bool
  | .pause => false
  | .saved _ _ => true

def describe : Slot ρ → String
  | .pause => "Pause"
  | .saved marker state => "Saved(" ++ toString marker ++ ", " ++ state.type.name ++ ")"

end Slot

/-- What the caller learns when its callee is left: whether a suspension is under way, and whether
the caller's own frame held something captured. -/
structure Departure where
  pausing : Bool
  hasState : Bool
  deriving DecidableEq, Repr

def Departure.name : Departure → String
  | ⟨false, false⟩ => "NotPausingNoState"
  | ⟨false, true⟩ => "NotPausingHasState"
  | ⟨true, false⟩ => "PausingNoState"
  | ⟨true, true⟩ => "PausingHasState"

/-- A broken calling discipline: a mistake of the program, reported as a panic. -/
inductive Misuse where
  | beginWound (depth : Nat)
  | finishAwayFromEntry (depth : Nat)
  | leaveUnmatched (depth : Nat)
  | captureUnwound
  | captureReserved (marker : UInt32)
  deriving DecidableEq, Repr

def Misuse.message : Misuse → String
  | .beginWound depth =>
    "Fiber::begin: re-entry already in progress at depth " ++ toString depth
  | .finishAwayFromEntry depth =>
    "Fiber::end: expected only the entry frame to be wound, found depth " ++ toString depth
  | .leaveUnmatched depth => "Fiber::up: no matching down (depth " ++ toString depth ++ ")"
  | .captureUnwound => "Fiber::set_state: fiber is not wound"
  | .captureReserved marker => "Fiber::set_state: marker " ++ toString marker ++ " is reserved"

inductive FrameError where
  | notWound
  | mismatch (depth : Nat) (found expected : String)
  | nothingCaptured (depth : Nat)
  | pauseExpected (depth : Nat) (marker : UInt32)
  | frameNotWound (index depth : Nat)
  deriving DecidableEq, Repr

def FrameError.toError : FrameError → Error
  | .notWound => .protocol "fiber is not wound"
  | .mismatch depth found expected =>
    { kind := .stateMismatch
      message := some ("frame at depth " ++ toString depth ++ " holds " ++ found ++
        ", expected " ++ expected) }
  | .nothingCaptured depth => .protocol ("no captured state at depth " ++ toString depth)
  | .pauseExpected depth marker =>
    .protocol ("toggle_pause: expected a pause sentinel at depth " ++ toString depth ++
      ", found state with marker " ++ toString marker)
  | .frameNotWound index depth =>
    .protocol ("up_ex: frame " ++ toString index ++ " is not wound (depth " ++
      toString depth ++ ")")

structure FrameStack (ρ : Type) where
  slots : List (Option (Slot ρ)) := []
  depth : Nat := 0
  marker : UInt32 := freshMarker
  pausing : Bool := false
  deriving DecidableEq, Repr

namespace FrameStack

variable {ρ : Type}

instance : Inhabited (FrameStack ρ) := ⟨{}⟩

def slotAt (s : FrameStack ρ) (index : Nat) : Option (Slot ρ) := s.slots[index]?.join

def markerAt (s : FrameStack ρ) (index : Nat) : UInt32 :=
  match s.slotAt index with
  | some slot => slot.marker
  | none => freshMarker

def current (s : FrameStack ρ) : Option (Slot ρ) := s.slotAt (s.depth - 1)

def setSlot (s : FrameStack ρ) (index : Nat) (slot : Option (Slot ρ)) : FrameStack ρ :=
  { s with slots := s.slots.set index slot }

def rewinding (s : FrameStack ρ) : Bool := s.marker ≠ freshMarker

def hasState (s : FrameStack ρ) : Bool := s.depth > 0 && s.current.any Slot.isSaved

def retained (s : FrameStack ρ) : Nat := s.slots.countP Option.isSome

def enter (s : FrameStack ρ) : FrameStack ρ :=
  let grown := { s with slots := if s.slots.length ≤ s.depth then s.slots ++ [none] else s.slots }
  { grown with depth := s.depth + 1, marker := grown.markerAt s.depth }

def begin (s : FrameStack ρ) : Except Misuse (FrameStack ρ) :=
  if s.depth = 0 then .ok { s with pausing := false }.enter
  else .error (.beginWound s.depth)

def finish (s : FrameStack ρ) : Except Misuse (Bool × FrameStack ρ) :=
  if s.depth = 1 then .ok (s.pausing, { slots := if s.pausing then s.slots else [] })
  else .error (.finishAwayFromEntry s.depth)

/-- Leaves a nested frame. When no suspension is under way the callee's slot and the caller's own
capture are dropped, and the caller is live from here on. -/
def leave (s : FrameStack ρ) : Except Misuse (Departure × FrameStack ρ) :=
  if s.depth < 2 then .error (.leaveUnmatched s.depth)
  else
    let callee := s.depth - 1
    let caller := s.depth - 2
    let departure := ⟨s.pausing, (s.slotAt caller).isSome⟩
    if s.pausing then .ok (departure, { s with depth := callee, marker := s.markerAt caller })
    else
      .ok (departure,
        { s with
          slots := (s.slots.set callee none).set caller none
          depth := callee
          marker := freshMarker })

def capture (s : FrameStack ρ) (marker : UInt32) (state : Captured ρ) :
    Except Misuse (FrameStack ρ) :=
  if s.depth = 0 then .error .captureUnwound
  else if marker = freshMarker ∨ marker = pauseMarker then .error (.captureReserved marker)
  else .ok { s.setSlot (s.depth - 1) (some (.saved marker state)) with pausing := true }

def state {α : Type} (s : FrameStack ρ) (expected : Expectation ρ α) : Except FrameError α :=
  if s.depth = 0 then .error .notWound
  else
    match s.current with
    | some (.saved _ state) =>
      match expected.read state with
      | some content => .ok content
      | none => .error (.mismatch s.depth state.type.name expected.name)
    | some .pause => .error (.mismatch s.depth "pause sentinel" expected.name)
    | none => .error (.nothingCaptured s.depth)

def replace (s : FrameStack ρ) (content : Captured ρ) :
    Except FrameError (Captured ρ × FrameStack ρ) :=
  (s.state (.captured content.type)).map fun was =>
    (was, s.setSlot (s.depth - 1) (some (.saved (s.markerAt (s.depth - 1)) content)))

def take {α : Type} (s : FrameStack ρ) (expected : Expectation ρ α) :
    Except FrameError (α × FrameStack ρ) :=
  (s.state expected).map fun content => (content, s.setSlot (s.depth - 1) none)

/-- Sets the sentinel of the current frame, or takes it away when the frame is rewound. -/
def togglePause (s : FrameStack ρ) : Except FrameError (FrameStack ρ) :=
  if s.depth = 0 then .error .notWound
  else
    match s.current with
    | none => .ok { s.setSlot (s.depth - 1) (some .pause) with pausing := true }
    | some .pause => .ok { s.setSlot (s.depth - 1) none with pausing := false }
    | some (.saved marker _) => .error (.pauseExpected s.depth marker)

/-- Makes the frame at an index the current one after frames above it were abandoned. -/
def recoverTo (s : FrameStack ρ) (index : Nat) : Except FrameError (UInt32 × FrameStack ρ) :=
  if s.depth ≤ index then .error (.frameNotWound index s.depth)
  else
    let kept := s.slots.take (index + 1)
    let slots := kept ++ List.replicate (s.slots.length - kept.length) none
    .ok (s.markerAt index, { s with slots, depth := index + 1, marker := s.markerAt index })

def clear (_ : FrameStack ρ) : FrameStack ρ := {}

def describe (s : FrameStack ρ) : String :=
  let slot : Option (Slot ρ) → String
    | some content => "Some(" ++ content.describe ++ ")"
    | none => "None"
  "Fiber \x7b slots: [" ++ ", ".intercalate (s.slots.map slot) ++ "], depth: " ++
    toString s.depth ++ ", marker: " ++ toString s.marker ++ ", pausing: " ++
    toString s.pausing ++ " \x7d"

end FrameStack

end ResumableTasks
