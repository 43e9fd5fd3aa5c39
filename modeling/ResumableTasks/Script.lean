import ResumableTasks.Context
import ResumableTasks.FrameStack.Step
/-!
Routine code as data. A script is a tree of operations on the context: each node names one
operation, and the script goes on by the reply. Replies include unwinding and panics, so a script
may pass them on, ignore them or replace them.

A routine object has a script for each of its states. Executing an object that a script invokes, or
a task that it runs, takes one level of the native stack; `depth` levels are there, and one more
than these panics.
-/
namespace ResumableTasks

/-- The operations of a context that need no further code. `emit` writes to the log, `object` and
`become` are the state of the routine object itself, `frameStep` works on the frame stack directly,
and the last group acts on latches, other tasks and the scheduler. -/
inductive Op (ρ ε : Type) where
  | emit (entry : ε)
  | look
  | object
  | become (state : ρ)
  | now
  | restore (type : ValueType)
  | suspend (suspension : Suspension) (marker : UInt32) (locals : Value)
  | pause (reason : WaitReason)
  | exit (value : Value)
  | errorExit (error : Error)
  | checkpoint
  | stackDepth (trace : CallTrace)
  | recoverDepth (trace : CallTrace)
  | frameStep (step : FrameStep ρ)
  | release (latch : Nat)
  | cancel (task : Nat) (reason : CancelReason)
  | isReady (task : Nat)
  | inspect (task : Nat)
  | run (task : Nat)
  | spawn (task : Nat)
  | live

abbrev Op.Reply {ρ ε : Type} : Op ρ ε → Type
  | .emit _ | .become _ | .release _ | .spawn _ => Unit
  | .look => ContextView ρ
  | .object => ρ
  | .now => Nat
  | .restore _ => Except Unwind Value
  | .suspend .. => Ending Unwind
  | .pause _ => Ending (Called Unit)
  | .exit _ | .errorExit _ => Unwind
  | .checkpoint => Except Unwind Unit
  | .stackDepth _ => Except Unwind Nat
  | .recoverDepth _ => Except Unwind UInt32
  | .frameStep _ => Except FrameFault (FrameAnswer ρ)
  | .cancel .. | .isReady _ => Bool
  | .inspect _ => Option (Task ρ)
  | .run _ => RunAnswer
  | .live => Nat

def Op.perform {ρ ε : Type} (execute : Context ρ ε → Ending Unit × Context ρ ε)
    (cx : Context ρ ε) : (op : Op ρ ε) → op.Reply × Context ρ ε
  | .emit entry => ((), { cx with world := cx.world.emit cx.task entry })
  | .look => (cx.view, cx)
  | .object => (cx.object, cx)
  | .become state => ((), { cx with object := state })
  | .now =>
    let reading := cx.world.readClock
    (reading.1, { cx with world := reading.2 })
  | .restore type => (cx.restore type, cx)
  | .suspend suspension marker locals => cx.suspend suspension marker (.value locals)
  | .pause reason => cx.pause reason
  | .exit value => cx.exitWith (.ok ⟨value⟩)
  | .errorExit error => cx.exitWith (.err error)
  | .checkpoint => (cx.checkpoint, cx)
  | .stackDepth trace => cx.stackDepth trace
  | .recoverDepth trace => cx.recoverDepth trace
  | .frameStep step =>
    let answered := step.run cx.frames
    (answered.1, { cx with frames := answered.2 })
  | .release latch => ((), { cx with world := cx.world.release latch })
  | .cancel task reason =>
    let answered := cx.world.cancel task reason
    (answered.1, { cx with world := answered.2 })
  | .isReady task =>
    let answered := cx.world.isReady task
    (answered.1, { cx with world := answered.2 })
  | .inspect task => (cx.world.tasks[task]?, cx)
  | .run task =>
    let answered := cx.world.runTask execute task
    (answered.1, { cx with world := answered.2 })
  | .spawn task => ((), { cx with world := cx.world.spawn task })
  | .live => (cx.world.scheduler.live, cx)

inductive Script (ρ ε : Type) where
  | done (ending : Ending Value)
  | act (op : Op ρ ε) (next : op.Reply → Script ρ ε)
  | call (body : Unit → Script ρ ε) (next : Ending (Called Value) → Script ρ ε)
  | invoke (object : ρ) (next : Ending (Called Unit) → Script ρ ε)

namespace Script

variable {ρ ε : Type}

instance : Inhabited (Script ρ ε) := ⟨.done (.returned .unit)⟩

def exec (execute : Context ρ ε → Ending Unit × Context ρ ε) :
    Script ρ ε → Context ρ ε → Ending Value × Context ρ ε
  | .done ending, cx => (ending, cx)
  | .act op next, cx =>
    let performed := op.perform execute cx
    (next performed.1).exec execute performed.2
  | .call body next, cx =>
    let called := Context.call (fun cx => (body ()).exec execute cx) cx
    (next called.1).exec execute called.2
  | .invoke object next, cx =>
    let called := Context.invoke execute object cx
    (next called.1).exec execute called.2

def execute (enter : ρ → Script ρ ε) : Nat → Context ρ ε → Ending Unit × Context ρ ε
  | 0, cx => (.panicked (.literal "native stack exhausted"), cx)
  | depth + 1, cx =>
    let ran := (enter cx.object).exec (execute enter depth) cx
    (ran.1.map fun _ => (), ran.2)

end Script

end ResumableTasks
