import ResumableTasks.TaskId
import ResumableTasks.CancelReason
/-!
Errors: a kind that fixes category, recoverability and the advised reaction, an optional message,
the task and depth at which it arose, and the texts of its causes. An error is fatal to its task
exactly when its category is the protocol between routines and their frame stack.
-/
namespace ResumableTasks

inductive ErrorCategory where
  | protocol | task | cancellation | classification | config | internal | user
  deriving DecidableEq, Repr

inductive Recoverability where
  | transient | permanent | unknown
  deriving DecidableEq, Repr

def Recoverability.shouldRetry : Recoverability → Bool
  | .transient => true
  | _ => false

def Recoverability.isPermanent : Recoverability → Bool
  | .permanent => true
  | _ => false

inductive RecoveryAction where
  | propagate | escalate | fallback | custom
  deriving DecidableEq, Repr

inductive ErrorKind where
  | protocolViolation | stateMismatch | missingBoundary
  | taskDone
  | cancelled
  | resolutionFailed
  | invalidConfig
  | internal
  | user
  deriving DecidableEq, Repr

namespace ErrorKind

def name : ErrorKind → String
  | .protocolViolation => "ProtocolViolation"
  | .stateMismatch => "StateMismatch"
  | .missingBoundary => "MissingBoundary"
  | .taskDone => "TaskDone"
  | .cancelled => "Cancelled"
  | .resolutionFailed => "ResolutionFailed"
  | .invalidConfig => "InvalidConfig"
  | .internal => "Internal"
  | .user => "User"

def category : ErrorKind → ErrorCategory
  | .protocolViolation | .stateMismatch | .missingBoundary => .protocol
  | .taskDone => .task
  | .cancelled => .cancellation
  | .resolutionFailed => .classification
  | .invalidConfig => .config
  | .internal => .internal
  | .user => .user

def recoverability : ErrorKind → Recoverability
  | .resolutionFailed | .user => .unknown
  | _ => .permanent

/-- A broken frame stack cannot be resumed, so whoever drives the task must stop. -/
def recoveryAction : ErrorKind → RecoveryAction
  | .protocolViolation | .stateMismatch | .missingBoundary | .internal => .escalate
  | .taskDone | .cancelled | .invalidConfig => .propagate
  | .resolutionFailed => .fallback
  | .user => .custom

end ErrorKind

structure ErrorContext where
  task : Option TaskId := none
  depth : Option Nat := none
  deriving DecidableEq, Repr, Inhabited

/-- The causes are the texts of the chain, the nearest one first. -/
structure Error where
  kind : ErrorKind
  message : Option String := none
  causes : List String := []
  context : ErrorContext := {}
  deriving DecidableEq, Repr

namespace Error

def protocol (detail : String) : Error := { kind := .protocolViolation, message := some detail }

def user (detail : String) : Error := { kind := .user, message := some detail }

def internal (detail : String) : Error := { kind := .internal, message := some detail }

def ofCancel (reason : CancelReason) : Error :=
  { kind := .cancelled, message := some reason.display }

def withMessage (e : Error) (message : String) : Error := { e with message := some message }

def withContext (e : Error) (context : ErrorContext) : Error := { e with context }

def withTask (e : Error) (task : TaskId) : Error :=
  { e with context := { e.context with task := some task } }

def inTask (e : Error) (task : TaskId) : Error :=
  if e.context.task.isSome then e else e.withTask task

def isCancelled (e : Error) : Bool := e.kind = .cancelled

def isFatal (e : Error) : Bool := e.kind.category = .protocol

def display (e : Error) : String :=
  e.kind.name ++ match e.message with
    | some message => ": " ++ message
    | none => ""

def withCauseText (e : Error) (text : String) : Error := { e with causes := [text] }

def withCause (e cause : Error) : Error := { e with causes := cause.display :: cause.causes }

def describe (e : Error) : String :=
  let optional : Option String → String
    | some text => "Some(" ++ text ++ ")"
    | none => "None"
  "Error \x7b kind: " ++ e.kind.name ++ ", message: " ++ optional (e.message.map Text.quoted) ++
    ", source: " ++ optional e.causes.head? ++ ", context: ErrorContext \x7b task_id: " ++
    optional (e.context.task.map TaskId.describe) ++ ", depth: " ++
    optional (e.context.depth.map toString) ++ " \x7d \x7d"

end Error

end ResumableTasks
