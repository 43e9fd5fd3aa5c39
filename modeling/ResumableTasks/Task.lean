import ResumableTasks.Unwind
import ResumableTasks.WaitReason
/-!
Tasks: an entry routine with its frame stack, wait condition, pending cancellation and outcome.

Running a task has three parts. Admission decides whether the routine is entered at all. The routine
then runs to some ending. Settlement turns the ending, the frame stack and the wait reason that it
leaves into a suspension, an outcome, or a failure that abandons the task.
-/
namespace ResumableTasks

inductive TaskState where
  | new | running | suspended | done
  deriving DecidableEq, Repr, Inhabited

namespace TaskState

def isTerminal (s : TaskState) : Bool := s = .done

def display : TaskState → String
  | .new => "new"
  | .running => "running"
  | .suspended => "suspended"
  | .done => "done"

def name : TaskState → String
  | .new => "New"
  | .running => "Running"
  | .suspended => "Suspended"
  | .done => "Done"

end TaskState

structure Task (ρ : Type) where
  id : TaskId
  entry : ρ
  -- A position among the classifiers of the world.
  classifier : Nat := 0
  state : TaskState := .new
  frames : FrameStack ρ := {}
  reason : Option WaitReason := none
  exit : Option TaskOutcome := none
  cancel : Option CancelReason := none

inductive RunAnswer where
  | suspended
  | done
  | failed (error : Error)
  | misused (misuse : Misuse)
  deriving DecidableEq, Repr

inductive Admission (ρ : Type) where
  | refused (error : Error)
  | cancelled (reason : CancelReason)
  | entered (frames : FrameStack ρ)
  | misused (misuse : Misuse)

inductive Settlement (ρ : Type) where
  | finished (outcome : TaskOutcome)
  | failed (error : Error)
  | suspended (frames : FrameStack ρ) (reason : Option WaitReason)
  | misused (misuse : Misuse)

namespace Settlement

variable {ρ α : Type}

def violation (id : TaskId) (detail : String) : Settlement ρ :=
  .failed ((Error.protocol detail).withTask id)

/-- Settles an entry routine that returned, or unwound for a suspension, by what its frame stack
says. -/
def ofFrames (id : TaskId) (unwound : Bool) (frames : FrameStack ρ)
    (reason : Option WaitReason) : Settlement ρ :=
  if frames.depth ≠ 1 then
    violation id ("entry routine returned with " ++ toString frames.depth ++ " frames wound")
  else match frames.finish with
    | .error misuse => .misused misuse
    | .ok (pausing, rest) =>
      if unwound && !pausing then
        violation id "entry unwound with Pause but the fiber is not pausing"
      else if !pausing && frames.retained > 0 then
        violation id ("rewind did not reach the suspended frames (" ++
          toString frames.retained ++ " still retained)")
      else match reason with
        | some (.done outcome) => .finished outcome
        | _ => if pausing then .suspended rest reason else .finished (.ok .ok)

/-- A panic, an observed cancellation, an error that is not fatal and an exit end the task in good
order; a fatal error abandons it. -/
def ofEnding (id : TaskId) (ending : Ending α) (frames : FrameStack ρ)
    (reason : Option WaitReason) : Settlement ρ :=
  match ending with
  | .panicked payload => .finished (.panicked (.ofPayload payload))
  | .unwound (.failed error) =>
    if error.isFatal then .failed (error.inTask id) else .finished (.err error)
  | .unwound (.cancelled reason) => .finished (.cancelled reason)
  | .unwound .exit =>
    .finished (match reason with
      | some (.done outcome) => outcome
      | _ => .ok .ok)
  | .unwound .pause => ofFrames id true frames reason
  | .returned _ => ofFrames id false frames reason

end Settlement

namespace Task

variable {ρ : Type}

def isDone (t : Task ρ) : Bool := t.state.isTerminal

theorem isDone_eq (t : Task ρ) : t.isDone = decide (t.state = .done) := by
  cases state : t.state <;> simp [isDone, TaskState.isTerminal, state]

def isRunning (t : Task ρ) : Bool := t.state = .running

def isCancelRequested (t : Task ρ) : Bool := t.cancel.isSome

def requestCancel (t : Task ρ) (reason : CancelReason) : Bool × Task ρ :=
  if t.isDone then (false, t)
  else
    (true, { t with cancel := some (match t.cancel with
      | some recorded => recorded.strengthen reason
      | none => reason) })

/-- Whether the task could go on, and the task after its condition was asked. A pending cancellation
answers in place of the condition. -/
def poll (latches : List Bool) (now : Nat) (t : Task ρ) : Bool × Task ρ :=
  match t.state with
  | .new => (true, t)
  | .running | .done => (false, t)
  | .suspended =>
    if t.isCancelRequested then (true, t)
    else match t.reason with
      | none => (true, t)
      | some reason =>
        let asked := reason.poll latches now t.id
        (asked.1, { t with reason := some asked.2 })

def admission (t : Task ρ) : Admission ρ :=
  match t.state, t.cancel with
  | .running, _ => .refused ((Error.protocol "run() is already in flight").withTask t.id)
  | .done, _ =>
    .refused (({ kind := .taskDone, message := some "task is done and cannot be re-entered" } :
      Error).withTask t.id)
  | .new, some reason => .cancelled reason
  | _, _ =>
    match t.frames.begin with
    | .ok frames => .entered frames
    | .error misuse => .misused misuse

def conclude (t : Task ρ) (outcome : TaskOutcome) : Task ρ :=
  { t with
    state := .done
    frames := t.frames.clear
    reason := some (.done outcome)
    exit := some outcome }

def settle (t : Task ρ) : Settlement ρ → RunAnswer × Task ρ
  | .finished outcome => (.done, t.conclude outcome)
  | .failed error => (.failed error, t.conclude (.err error))
  | .suspended frames reason => (.suspended, { t with state := .suspended, frames, reason })
  | .misused misuse => (.misused misuse, t)

def display (t : Task ρ) : String :=
  let reason :=
    if t.isRunning then "?"
    else match t.reason with
      | some reason => reason.display
      | none => "none"
  t.id.display ++ "(running=" ++ toString t.isRunning ++ ", pr=" ++ reason ++ ")"

def describe (t : Task ρ) : String :=
  "Task \x7b id: " ++ t.id.describe ++ ", state: " ++ t.state.name ++ ", cancel_requested: " ++
    toString t.isCancelRequested ++ ", .. \x7d"

end Task

end ResumableTasks
