import ResumableTasks.Settings
/-!
Schedulers: a first-in first-out queue of tasks with the counts that a run reports. A scheduler
works with its settings in normal form and with one classifier, whose configuration the settings
repeat.
-/
namespace ResumableTasks

structure RunQueue (α : Type) where
  entries : List α := []
  deriving DecidableEq, Repr, Inhabited

namespace RunQueue

variable {α : Type}

def push (q : RunQueue α) (a : α) : RunQueue α := ⟨q.entries ++ [a]⟩

def pop? (q : RunQueue α) : Option (α × RunQueue α) :=
  match q.entries with
  | [] => none
  | a :: rest => some (a, ⟨rest⟩)

def size (q : RunQueue α) : Nat := q.entries.length

def isEmpty (q : RunQueue α) : Bool := q.entries.isEmpty

end RunQueue

structure SchedulerReport where
  completed : Nat
  failed : Nat
  pending : Nat
  deriving DecidableEq, Repr

def SchedulerReport.isComplete (r : SchedulerReport) : Bool := r.pending = 0

/-- The queue holds positions of tasks in the world, and the classifier is one, too. -/
structure Scheduler where
  settings : Settings
  classifier : Nat
  queue : RunQueue Nat := {}
  live : Nat := 0
  completed : Nat := 0
  failed : Nat := 0
  lastProgress : Nat := 0
  deriving Inhabited

/-- Which classifier a scheduler is to use: the process-wide one as far as it agrees with the
settings, a new one over a catalog, or a given one. -/
inductive ClassifierChoice where
  | processWide
  | overCatalog (catalog : Catalog)
  | given (position : Nat)

namespace Scheduler

def adopt (s : Settings) (c : Classifier) : Settings := { s.normalize with classifier := c.config }

def classifierOver (s : Settings) (catalog : Catalog) : Classifier :=
  { catalog, config := s.normalize.classifier }

def choose (s : Settings) (classifiers : List Classifier) :
    ClassifierChoice → List Classifier × Nat
  | .given position => (classifiers, position)
  | .overCatalog catalog => (classifiers ++ [classifierOver s catalog], classifiers.length)
  -- The process-wide classifier has position zero.
  | .processWide =>
    let shared := classifiers.headD {}
    if shared.config = s.normalize.classifier then (classifiers, 0)
    else (classifiers ++ [classifierOver s shared.catalog], classifiers.length)

def enqueue (s : Scheduler) (task : Nat) : Scheduler := { s with queue := s.queue.push task }

def spawn (s : Scheduler) (task : Nat) : Scheduler :=
  { s.enqueue task with live := s.live + 1 }

def count (s : Scheduler) (abandoned : Bool) : Scheduler :=
  if abandoned then { s with failed := s.failed + 1 } else { s with completed := s.completed + 1 }

def drop (s : Scheduler) : Scheduler := { s with live := s.live - 1 }

def retire (s : Scheduler) (abandoned : Bool) : Scheduler := (s.count abandoned).drop

def report (s : Scheduler) : SchedulerReport := ⟨s.completed, s.failed, s.live⟩

end Scheduler

end ResumableTasks
