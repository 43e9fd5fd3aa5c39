import ResumableTasks.Calls
import ResumableTasks.Scheduler.Loop
/-!
What the owner of a scheduler does, one call after the other: it creates and queues tasks, drives
some of them itself, cancels them, releases latches, lets the scheduler run, and may take a new
scheduler at any time.
-/
namespace ResumableTasks

inductive SchedulerCall (ρ ε : Type) where
  | onTask (call : TaskCall ρ ε)
  | release (latch : Nat)
  | openScheduler (settings : Settings) (choice : ClassifierChoice)
  | spawn (task : Nat)
  | spawnRoutine (entry : ρ)
  | drive (enter : ρ → Script ρ ε) (depth turns : Nat)

namespace World

variable {ρ ε : Type}

def serve (w : World ρ ε) : SchedulerCall ρ ε → Option (World ρ ε)
  | .onTask call => some (w.answer call).2
  | .release latch => some (w.release latch)
  | .openScheduler settings choice => some (w.openScheduler settings choice)
  | .spawn task => some (w.spawn task)
  | .spawnRoutine entry => some (w.spawnRoutine entry)
  -- No world if the scheduler is still at work after all its turns.
  | .drive enter depth turns =>
    (w.runCurrentThread (Script.execute enter depth) turns).map Prod.snd

def serveAll (w : World ρ ε) : List (SchedulerCall ρ ε) → Option (World ρ ε)
  | [] => some w
  | call :: rest => (w.serve call).bind fun w => w.serveAll rest

end World

end ResumableTasks
