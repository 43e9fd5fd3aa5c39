import ResumableTasks.Outcome
import ResumableTasks.FrameStack
/-!
How routine code leaves: by a value, by unwinding or by a panic; and what a call that may suspend
answers to its caller.
-/
namespace ResumableTasks

inductive Unwind where
  | pause
  | exit
  | cancelled (reason : CancelReason)
  | failed (error : Error)
  deriving DecidableEq, Repr

namespace Unwind

def violation (task : TaskId) (depth : Nat) (detail : String) : Unwind :=
  .failed ((Error.protocol detail).withContext { task, depth })

def error? : Unwind → Option Error
  | .failed error => some error
  | _ => none

def display : Unwind → String
  | .pause => "pause"
  | .exit => "exit"
  | .cancelled reason => "cancelled: " ++ reason.display
  | .failed error => "failed: " ++ error.display

end Unwind

/-- A suspension on its way to the scheduler, seen by one frame. -/
structure Suspension where
  hasState : Bool
  deriving DecidableEq, Repr

def Suspension.departure (s : Suspension) : Departure := ⟨true, s.hasState⟩

inductive Called (α : Type) where
  | returned (value : α)
  | paused (suspension : Suspension)
  deriving DecidableEq, Repr

inductive Ending (α : Type) where
  | returned (value : α)
  | unwound (unwind : Unwind)
  | panicked (payload : Value)
  deriving DecidableEq, Repr

namespace Ending

variable {α β : Type}

def map (f : α → β) : Ending α → Ending β
  | .returned value => .returned (f value)
  | .unwound unwind => .unwound unwind
  | .panicked payload => .panicked payload

def leave : Ending Unwind → Ending α
  | .returned unwind | .unwound unwind => .unwound unwind
  | .panicked payload => .panicked payload

def ofMisuse (misuse : Misuse) : Ending α := .panicked (.text misuse.message)

def ofError (error : Error) : Ending α := .unwound (.failed error)

end Ending

end ResumableTasks
