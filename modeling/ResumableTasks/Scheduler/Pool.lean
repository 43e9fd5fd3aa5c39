import ResumableTasks.Scheduler.Loop
/-!
Driving tasks by a pool of workers. Each worker repeats small steps, and the steps of different
workers may come in any order: look whether a task is left, take one from the queue, ask whether it
is done or could go on, run it, and last put it back, or count it as retired and only then drop it
from those that are live.
-/
namespace ResumableTasks

inductive Worker where
  | looking (misses : Nat)
  | taking (misses : Nat)
  | asking (misses task : Nat)
  | running (misses task : Nat)
  | settling (misses task : Nat) (answer : RunAnswer)
  | putting (misses task : Nat) (moved : Bool)
  | counting (task : Nat) (abandoned : Bool)
  | dropping (task : Nat)
  | left
  deriving DecidableEq, Repr

def Worker.held : Worker → Option Nat
  | .asking _ task | .running _ task | .settling _ task _ | .putting _ task _ | .counting task _
  | .dropping task => some task
  | .looking _ | .taking _ | .left => none

namespace Worker

variable {ρ ε α : Type}

def afterMiss (misses : Nat) (w : World ρ ε) : Worker × World ρ ε :=
  if w.scheduler.queue.size < misses + 1 then (.looking 0, w.sleep)
  else (.looking (misses + 1), w)

def step (execute : Context ρ ε → Ending α × Context ρ ε) (w : World ρ ε) :
    Worker → Worker × World ρ ε
  | .looking misses =>
    if w.scheduler.live = 0 then (.left, w)
    else
      let checked := w.timedOut
      (if checked.1 then .left else .taking misses, checked.2)
  | .taking misses =>
    match w.scheduler.queue.pop? with
    | none => (.looking misses, w.sleep)
    | some (task, queue) => (.asking misses task, w.updateScheduler ({ · with queue }))
  | .asking misses task =>
    if w.isDone task then (.counting task false, w)
    else
      let asked := w.isReady task
      (if asked.1 then .running misses task else .putting misses task false, asked.2)
  | .running misses task =>
    let ran := w.runTask execute task
    (.settling misses task ran.1, ran.2)
  | .settling misses task answer =>
    let decided := w.verdict task answer
    (match decided.1 with
      | .putBack moved => .putting misses task moved
      | .retired abandoned => .counting task abandoned, decided.2)
  | .putting misses task moved =>
    let w := w.updateScheduler (·.enqueue task)
    if moved then (.looking 0, w) else afterMiss misses w
  | .counting task abandoned => (.dropping task, w.updateScheduler (·.count abandoned))
  | .dropping _ => (.looking 0, w.updateScheduler (·.drop))
  | .left => (.left, w)

end Worker

structure Pool (ρ ε : Type) where
  workers : List Worker
  world : World ρ ε

namespace Pool

variable {ρ ε α : Type}

def start (w : World ρ ε) : Pool ρ ε :=
  ⟨List.replicate w.scheduler.settings.workerThreads (.looking 0), w.beginRun⟩

def step (execute : Context ρ ε → Ending α × Context ρ ε) (p : Pool ρ ε) (worker : Nat) :
    Pool ρ ε :=
  match p.workers[worker]? with
  | none => p
  | some phase =>
    let moved := phase.step execute p.world
    ⟨p.workers.set worker moved.1, moved.2⟩

def steps (execute : Context ρ ε → Ending α × Context ρ ε) (p : Pool ρ ε) (order : List Nat) :
    Pool ρ ε :=
  order.foldl (step execute) p

def isOver (p : Pool ρ ε) : Bool := p.workers.all (· = .left)

/-- At most `rounds` rounds in which every worker takes one step; nothing if some worker is still
at work by then. -/
def runRounds (execute : Context ρ ε → Ending α × Context ρ ε) :
    Nat → Pool ρ ε → Option (Pool ρ ε)
  | 0, p => if p.isOver then some p else none
  | rounds + 1, p =>
    if p.isOver then some p
    else runRounds execute rounds (p.steps execute (List.range p.workers.length))

end Pool

def World.runPool {ρ ε α : Type} (execute : Context ρ ε → Ending α × Context ρ ε) (rounds : Nat)
    (w : World ρ ε) : Option (SchedulerReport × World ρ ε) :=
  (Pool.runRounds execute rounds (Pool.start w)).map fun p =>
    (p.world.scheduler.report, p.world)

end ResumableTasks
