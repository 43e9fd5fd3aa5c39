import ResumableTasks.Task
import ResumableTasks.Scheduler
import ResumableTasks.Classifier.StackDepth
import ResumableTasks.Clock
/-!
The world that tasks live in: all tasks, the latches and classifiers that they share, one scheduler,
the clock, and the log of what routines emitted. Tasks, latches and classifiers are known by their
position.
-/
namespace ResumableTasks

/-- `ρ` is the type of routine objects and `ε` that of log entries. -/
structure World (ρ ε : Type) where
  tasks : List (Task ρ) := []
  latches : List Bool := []
  classifiers : List Classifier := [{}]
  scheduler : Scheduler
  clock : Clock := {}
  log : List (Nat × ε) := []

namespace World

variable {ρ ε : Type}

def updateTask (w : World ρ ε) (task : Nat) (change : Task ρ → Task ρ) : World ρ ε :=
  { w with tasks := w.tasks.modify task change }

def addTask (w : World ρ ε) (entry : ρ) (classifier : Nat) : World ρ ε :=
  { w with tasks := w.tasks ++ [{ id := .ofIndex w.tasks.length, entry, classifier }] }

def emit (w : World ρ ε) (task : Nat) (entry : ε) : World ρ ε :=
  { w with log := w.log ++ [(task, entry)] }

def isReleased (w : World ρ ε) (latch : Nat) : Bool := w.latches[latch]?.getD false

def release (w : World ρ ε) (latch : Nat) : World ρ ε :=
  { w with latches := w.latches.set latch true }

def readClock (w : World ρ ε) : Nat × World ρ ε :=
  let reading := w.clock.read
  (reading.1, { w with clock := reading.2 })

def sleep (w : World ρ ε) : World ρ ε :=
  { w with clock := w.clock.sleep w.scheduler.settings.idleBackoff }

def classifierAt (w : World ρ ε) (position : Nat) : Classifier :=
  w.classifiers[position]?.getD {}

def stackDepth (w : World ρ ε) (position : Nat) (trace : CallTrace) :
    Except Error Nat × World ρ ε :=
  let counted := (w.classifierAt position).stackDepth trace
  (counted.1, { w with classifiers := w.classifiers.set position counted.2 })

def cancelOf (w : World ρ ε) (task : Nat) : Option CancelReason :=
  w.tasks[task]?.bind Task.cancel

def cancel (w : World ρ ε) (task : Nat) (reason : CancelReason) : Bool × World ρ ε :=
  ((w.tasks[task]?.map fun t => (t.requestCancel reason).1).getD false,
   w.updateTask task fun t => (t.requestCancel reason).2)

def isReady (w : World ρ ε) (task : Nat) : Bool × World ρ ε :=
  let reading := w.readClock
  ((w.tasks[task]?.map fun t => (t.poll w.latches reading.1).1).getD false,
   reading.2.updateTask task fun t => (t.poll w.latches reading.1).2)

def isDone (w : World ρ ε) (task : Nat) : Bool := w.tasks[task]?.any Task.isDone

def updateScheduler (w : World ρ ε) (change : Scheduler → Scheduler) : World ρ ε :=
  { w with scheduler := change w.scheduler }

def spawn (w : World ρ ε) (task : Nat) : World ρ ε :=
  if w.isDone task then w else w.updateScheduler (·.spawn task)

def openScheduler (w : World ρ ε) (settings : Settings) (choice : ClassifierChoice) : World ρ ε :=
  let chosen := Scheduler.choose settings w.classifiers choice
  let reading := { w with classifiers := chosen.1 }.readClock
  let settings := Scheduler.adopt settings (reading.2.classifierAt chosen.2)
  { reading.2 with
    scheduler := { settings, classifier := chosen.2, lastProgress := reading.1 } }

def spawnRoutine (w : World ρ ε) (entry : ρ) : World ρ ε :=
  (w.addTask entry w.scheduler.classifier).spawn w.tasks.length

end World

end ResumableTasks
