import ResumableTasks.Text.Quoted
/-!
Why a task is asked to stop. Requests accumulate: a stronger kind replaces the recorded reason, and
a request of the same kind can only add a message that is still missing.
-/
namespace ResumableTasks

inductive CancelKind where
  | user | timeout | shutdown
  deriving DecidableEq, Repr

namespace CancelKind

def strength : CancelKind → Nat
  | .user => 0
  | .timeout => 1
  | .shutdown => 2

def order (a b : CancelKind) : Ordering := compare a.strength b.strength

def display : CancelKind → String
  | .user => "user"
  | .timeout => "timeout"
  | .shutdown => "shutdown"

def name : CancelKind → String
  | .user => "User"
  | .timeout => "Timeout"
  | .shutdown => "Shutdown"

end CancelKind

structure CancelReason where
  kind : CancelKind := .user
  message : Option String := none
  deriving DecidableEq, Repr, Inhabited

namespace CancelReason

/-- What a request makes of the recorded reason, and whether that is a change. -/
def strengthening (recorded request : CancelReason) : Bool × CancelReason :=
  if recorded.kind.strength < request.kind.strength then (true, request)
  else if request.kind = recorded.kind ∧ recorded.message = none ∧ request.message ≠ none then
    (true, { recorded with message := request.message })
  else (false, recorded)

def strengthen (recorded request : CancelReason) : CancelReason :=
  (recorded.strengthening request).2

def display (r : CancelReason) : String :=
  r.kind.display ++ match r.message with
    | some message => ": " ++ message
    | none => ""

def describe (r : CancelReason) : String :=
  "CancelReason \x7b kind: " ++ r.kind.name ++ ", message: " ++
    (match r.message with
     | some message => "Some(" ++ Text.quoted message ++ ")"
     | none => "None") ++ " \x7d"

end CancelReason

end ResumableTasks
