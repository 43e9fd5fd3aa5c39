import ResumableTasks.Context
/-!
Driving tasks on one thread. Each turn takes the next task from the queue and either retires it,
runs it, or puts it back untouched because it cannot go on yet. A sweep in which no task could go on
is followed by a pause. The loop ends when no task is left, or when nothing has moved for the idle
timeout.
-/
namespace ResumableTasks.World

variable {ρ ε α : Type}

def progress (w : World ρ ε) : World ρ ε :=
  let reading := w.readClock
  reading.2.updateScheduler ({ · with lastProgress := reading.1 })

def timedOut (w : World ρ ε) : Bool × World ρ ε :=
  match w.scheduler.settings.idleTimeout with
  | none => (false, w)
  | some timeout =>
    let reading := w.readClock
    (timeout ≤ reading.1 - w.scheduler.lastProgress, reading.2)

end World

inductive Verdict where
  | putBack (moved : Bool)
  | retired (abandoned : Bool)
  deriving DecidableEq, Repr

namespace World

variable {ρ ε α : Type}

def verdict (task : Nat) (w : World ρ ε) : RunAnswer → Verdict × World ρ ε
  | .suspended => (.putBack true, w.progress)
  | .done => (.retired false, w.progress)
  | .failed error =>
    if error.kind = .taskDone then (.retired false, w)
    else if w.isDone task then (.retired true, w.progress)
    else (.putBack false, w)
  | .misused _ => (.putBack false, w)

def settle (task : Nat) (w : World ρ ε) : Verdict → Bool × World ρ ε
  | .putBack moved => (moved, w.updateScheduler (·.enqueue task))
  | .retired abandoned => (true, w.updateScheduler (·.retire abandoned))

def dispatch (execute : Context ρ ε → Ending α × Context ρ ε) (task : Nat) (w : World ρ ε) :
    Bool × World ρ ε :=
  if w.isDone task then w.settle task (.retired false)
  else
    let asked := w.isReady task
    if asked.1 then
      let ran := asked.2.runTask execute task
      let decided := ran.2.verdict task ran.1
      decided.2.settle task decided.1
    else asked.2.settle task (.putBack false)

inductive Turn (ρ ε : Type) where
  | stopped (world : World ρ ε)
  -- Counted are the turns since a task moved.
  | next (misses : Nat) (world : World ρ ε)

def turn (execute : Context ρ ε → Ending α × Context ρ ε) (misses : Nat) (w : World ρ ε) :
    Turn ρ ε :=
  if w.scheduler.live = 0 then .stopped w
  else
    let checked := w.timedOut
    let w := checked.2
    if checked.1 then .stopped w
    else match w.scheduler.queue.pop? with
      | none => .next misses w.sleep
      | some (task, queue) =>
        let moved := (w.updateScheduler ({ · with queue })).dispatch execute task
        let w := moved.2
        if moved.1 then .next 0 w
        else if w.scheduler.queue.size < misses + 1 then .next 0 w.sleep
        else .next (misses + 1) w

/-- At most `turns` turns; nothing if the loop has not ended by then. -/
def runTurns (execute : Context ρ ε → Ending α × Context ρ ε) :
    Nat → Nat → World ρ ε → Option (World ρ ε)
  | 0, _, _ => none
  | turns + 1, misses, w =>
    match w.turn execute misses with
    | .stopped w => some w
    | .next misses w => runTurns execute turns misses w

def beginRun (w : World ρ ε) : World ρ ε :=
  (w.updateScheduler ({ · with completed := 0, failed := 0 })).progress

def runCurrentThread (execute : Context ρ ε → Ending α × Context ρ ε) (turns : Nat)
    (w : World ρ ε) : Option (SchedulerReport × World ρ ε) :=
  (runTurns execute turns 0 w.beginRun).map fun w => (w.scheduler.report, w)

end ResumableTasks.World
