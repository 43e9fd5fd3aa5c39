import ResumableTasks.World
/-!
The context of a running routine: its task, the frame stack and wait reason of that task, the
routine object being executed, and the world around it.

Every operation that may suspend enters a frame of its own and leaves it again. A suspension unwinds
frame by frame: each caller captures its locals once and passes the unwinding on.
-/
namespace ResumableTasks

structure Context (ρ ε : Type) where
  task : Nat
  id : TaskId
  classifier : Nat
  frames : FrameStack ρ
  reason : Option WaitReason
  object : ρ
  world : World ρ ε

structure ContextView (ρ : Type) where
  id : TaskId
  frames : FrameStack ρ
  reason : Option WaitReason
  cancelRequested : Bool

namespace ContextView

variable {ρ : Type}

def unknownMarker (v : ContextView ρ) (marker : UInt32) : Unwind :=
  .violation v.id v.frames.depth ("unknown resume marker " ++ toString marker)

def describe (v : ContextView ρ) : String :=
  "Cx \x7b task: " ++ v.id.describe ++ ", depth: " ++ toString v.frames.depth ++ ", marker: " ++
    toString v.frames.marker ++ ", pausing: " ++ toString v.frames.pausing ++ ", .. \x7d"

end ContextView

namespace Context

variable {ρ ε α : Type}

def violation (cx : Context ρ ε) (detail : String) : Unwind :=
  .violation cx.id cx.frames.depth detail

def cancelRequest (cx : Context ρ ε) : Option CancelReason := cx.world.cancelOf cx.task

def checkpoint (cx : Context ρ ε) : Except Unwind Unit :=
  match cx.cancelRequest with
  | some reason => .error (.cancelled reason)
  | none => .ok ()

def restore (cx : Context ρ ε) (type : ValueType) : Except Unwind Value :=
  (cx.frames.state (.value type)).mapError fun e => .failed e.toError

def answer (cx : Context ρ ε) (departure : Departure) : Ending α → Ending (Called α)
  | .returned value =>
    if departure.pausing then
      .unwound (cx.violation "callee returned normally while the fiber is pausing")
    else .returned (.returned value)
  | .unwound .pause =>
    if departure.pausing then .returned (.paused ⟨departure.hasState⟩)
    else .unwound (cx.violation "callee unwound with Pause but the fiber is not pausing")
  | .unwound unwind => .unwound unwind
  | .panicked payload => .panicked payload

def call (body : Context ρ ε → Ending α × Context ρ ε) (cx : Context ρ ε) :
    Ending (Called α) × Context ρ ε :=
  match body { cx with frames := cx.frames.enter } with
  -- A panic goes through without the frame being left.
  | (.panicked payload, cx) => (.panicked payload, cx)
  | (ending, cx) =>
    match cx.frames.leave with
    | .error misuse => (.ofMisuse misuse, cx)
    | .ok (departure, frames) =>
      let cx := { cx with frames }
      (cx.answer departure ending, cx)

def suspend (cx : Context ρ ε) (suspension : Suspension) (marker : UInt32) (locals : Captured ρ) :
    Ending Unwind × Context ρ ε :=
  -- An earlier capture is still valid.
  if suspension.hasState then (.returned .pause, cx)
  else
    match cx.frames.capture marker locals with
    | .ok frames => (.returned .pause, { cx with frames })
    | .error misuse => (.ofMisuse misuse, cx)

/-- The frame of an invocation: `execute` runs the object in a frame of its own. The object of the
first invocation is kept while it is suspended, and `given` counts only then. -/
def invokeFrame (execute : Context ρ ε → Ending Unit × Context ρ ε) (given : ρ)
    (cx : Context ρ ε) : Ending Unit × Context ρ ε :=
  let target : Except FrameError (ρ × FrameStack ρ) :=
    if cx.frames.rewinding then cx.frames.take .routine else .ok (given, cx.frames)
  match target with
  | .error e => (.ofError e.toError, cx)
  | .ok (target, frames) =>
    let outer := cx.object
    let called := call execute { cx with frames, object := target }
    let cx := { called.2 with object := outer }
    match called.1 with
    | .returned (.returned ()) => (.returned (), cx)
    | .returned (.paused suspension) =>
      let passed := cx.suspend suspension 1 (.routine called.2.object)
      (passed.1.leave, passed.2)
    | .unwound unwind => (.unwound unwind, cx)
    | .panicked payload => (.panicked payload, cx)

def invoke (execute : Context ρ ε → Ending Unit × Context ρ ε) (given : ρ) :
    Context ρ ε → Ending (Called Unit) × Context ρ ε :=
  call (invokeFrame execute given)

/-- Suspends on a condition, or goes on where an earlier suspension is rewound. While a suspension
is already under way it only says so. -/
def pause (cx : Context ρ ε) (reason : WaitReason) : Ending (Called Unit) × Context ρ ε :=
  if cx.frames.pausing then (.returned (.paused ⟨cx.frames.hasState⟩), cx)
  else
    let entered := cx.frames.enter
    let rewinding := entered.rewinding
    let toggled := entered.togglePause
    let checked := if rewinding then cx.checkpoint else .ok ()
    let cx := { cx with
      reason := if rewinding then none else some reason
      frames := toggled.toOption.getD entered }
    match cx.frames.leave with
    | .error misuse => (.ofMisuse misuse, cx)
    | .ok (departure, frames) =>
      let cx := { cx with frames }
      match toggled, checked with
      | .error e, _ => (.ofError e.toError, cx)
      | .ok _, .error unwind => (.unwound unwind, cx)
      | .ok _, .ok () =>
        if departure.pausing then (.returned (.paused ⟨departure.hasState⟩), cx)
        else (.returned (.returned ()), cx)

def exitWith (cx : Context ρ ε) (outcome : TaskOutcome) : Unwind × Context ρ ε :=
  (.exit, { cx with reason := some (.done outcome) })

def stackDepth (cx : Context ρ ε) (trace : CallTrace) : Except Unwind Nat × Context ρ ε :=
  let counted := cx.world.stackDepth cx.classifier trace
  (counted.1.mapError .failed, { cx with world := counted.2 })

def recoverDepth (cx : Context ρ ε) (trace : CallTrace) : Except Unwind UInt32 × Context ρ ε :=
  match cx.stackDepth trace with
  | (.error unwind, cx) => (.error unwind, cx)
  | (.ok 0, cx) =>
    (.error (cx.violation "recover_depth: no suspend-capable frame below the boundary"), cx)
  | (.ok (index + 1), cx) =>
    match cx.frames.recoverTo index with
    | .ok (marker, frames) => (.ok marker, { cx with frames })
    | .error e => (.error (.failed e.toError), cx)

def view (cx : Context ρ ε) : ContextView ρ where
  id := cx.id
  frames := cx.frames
  reason := cx.reason
  cancelRequested := cx.cancelRequest.isSome

end Context

namespace World

variable {ρ ε α : Type}

/-- Runs a task once, with `execute` for its entry routine. While the routine runs its task is in
flight: the frame stack and the wait reason are with the context, and the world shows the task as
running. -/
def runTask (execute : Context ρ ε → Ending α × Context ρ ε) (task : Nat) (w : World ρ ε) :
    RunAnswer × World ρ ε :=
  match w.tasks[task]? with
  | none => (.failed (.internal "no such task"), w)
  | some t =>
    match t.admission with
    | .refused error => (.failed error, w)
    | .cancelled reason => (.done, w.updateTask task (·.conclude (.cancelled reason)))
    | .misused misuse => (.misused misuse, w.updateTask task ({ · with state := .running }))
    | .entered frames =>
      let ran := execute
        { task
          id := t.id
          classifier := t.classifier
          frames
          reason := t.reason
          object := t.entry
          world := w.updateTask task ({ · with state := .running }) }
      let settlement := Settlement.ofEnding t.id ran.1 ran.2.frames ran.2.reason
      ((t.settle settlement).1,
       ran.2.world.updateTask task fun t =>
         ({ t with entry := ran.2.object }.settle settlement).2)

end World

end ResumableTasks
