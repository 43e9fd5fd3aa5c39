import ResumableTasks.Value
import ResumableTasks.Error
/-!
How work ends: a value, an error, an observed cancellation or a panic, in ascending severity. The
outcome of a task carries an exit value or an error; the default exit value is the literal `OK`.
-/
namespace ResumableTasks

structure PanicMessage where
  text : String
  deriving DecidableEq, Repr, Inhabited

namespace PanicMessage

def ofPayload : Value → PanicMessage
  | .literal text | .text text => ⟨text⟩
  | _ => ⟨"non-string panic payload"⟩

def display (p : PanicMessage) : String := "panic: " ++ p.text

def describe (p : PanicMessage) : String :=
  "PanicPayload \x7b message: " ++ Text.quoted p.text ++ " \x7d"

end PanicMessage

structure ExitValue where
  value : Value
  deriving DecidableEq, Repr

namespace ExitValue

def ok : ExitValue := ⟨.literal "OK"⟩

/-- Any literal that reads `OK` counts as the default, an owned text never does. -/
def isDefault (v : ExitValue) : Bool := v.value = .literal "OK"

def describe (v : ExitValue) : String :=
  if v.isDefault then "ExitValue(OK)" else "ExitValue(<" ++ v.value.type.name ++ ">)"

end ExitValue

inductive Outcome (α β : Type) where
  | ok (value : α)
  | err (error : β)
  | cancelled (reason : CancelReason)
  | panicked (panic : PanicMessage)
  deriving DecidableEq, Repr

/-- The three ways to fail, as they come out of an outcome that is taken for its value. -/
inductive OutcomeFailure (β : Type) where
  | err (error : β)
  | cancelled (reason : CancelReason)
  | panicked (panic : PanicMessage)
  deriving DecidableEq, Repr

namespace OutcomeFailure

def display {β : Type} (text : β → String) : OutcomeFailure β → String
  | .err error => text error
  | .cancelled reason => "cancelled: " ++ reason.display
  | .panicked panic => panic.display

end OutcomeFailure

namespace Outcome

variable {α β : Type}

def severity : Outcome α β → Nat
  | .ok _ => 0
  | .err _ => 1
  | .cancelled _ => 2
  | .panicked _ => 3

def isOk : Outcome α β → Bool
  | .ok _ => true
  | _ => false

def isErr : Outcome α β → Bool
  | .err _ => true
  | _ => false

def isCancelled : Outcome α β → Bool
  | .cancelled _ => true
  | _ => false

def isPanicked : Outcome α β → Bool
  | .panicked _ => true
  | _ => false

def isFailure (o : Outcome α β) : Bool := !o.isOk

def ok? : Outcome α β → Option α
  | .ok value => some value
  | _ => none

def err? : Outcome α β → Option β
  | .err error => some error
  | _ => none

def toResult : Outcome α β → Except (OutcomeFailure β) α
  | .ok value => .ok value
  | .err error => .error (.err error)
  | .cancelled reason => .error (.cancelled reason)
  | .panicked panic => .error (.panicked panic)

def ofResult : Except β α → Outcome α β
  | .ok value => .ok value
  | .error error => .err error

def describe (value : α → String) (error : β → String) : Outcome α β → String
  | .ok v => "Ok(" ++ value v ++ ")"
  | .err e => "Err(" ++ error e ++ ")"
  | .cancelled reason => "Cancelled(" ++ reason.describe ++ ")"
  | .panicked panic => "Panicked(" ++ panic.describe ++ ")"

end Outcome

abbrev TaskOutcome := Outcome ExitValue Error

end ResumableTasks
