import ResumableTasks.Scheduler.History
import ResumableTasks.Proofs.SchedulerTurns
import ResumableTasks.Proofs.TaskLifecycle
/-!
The bookkeeping of a scheduler on one thread: no entry of the queue is lost or counted twice.
Beside the execution of a routine stand the entries that it queues. They are all that a routine
can do to its scheduler, so that each turn of the loop is accounted for: the entry that it takes
goes back behind those that were queued meanwhile, or it is retired into one of the two counters.
-/
namespace ResumableTasks

variable {ρ ε α : Type}

namespace Scheduler

def spawnAll (s : Scheduler) (tasks : List Nat) : Scheduler := tasks.foldl spawn s

theorem spawnAll_append (s : Scheduler) (first later : List Nat) :
    s.spawnAll (first ++ later) = (s.spawnAll first).spawnAll later :=
  List.foldl_append

theorem spawnAll_eq (s : Scheduler) (tasks : List Nat) :
    s.spawnAll tasks =
      { s with queue := ⟨s.queue.entries ++ tasks⟩, live := s.live + tasks.length } := by
  induction tasks generalizing s with
  | nil => simp [spawnAll]
  | cons task rest ih =>
    have unfolded : s.spawnAll (task :: rest) = (s.spawn task).spawnAll rest := rfl
    rw [unfolded, ih]
    simp [spawn, enqueue, RunQueue.push]
    omega

def Balanced (s : Scheduler) : Prop := s.live = s.queue.size

theorem Balanced.spawnAll {s : Scheduler} (balanced : s.Balanced) (tasks : List Nat) :
    (s.spawnAll tasks).Balanced := by
  simp only [Balanced, RunQueue.size] at balanced
  simp [spawnAll_eq, Balanced, RunQueue.size, balanced]

/-- What a dispatch may do with the entry that was taken, while others were queued: put it back
behind them, or retire it into one of the counters. -/
inductive Dispatched (task : Nat) (spawned : List Nat) (s s' : Scheduler) : Prop
  | putBack (queue : s'.queue.entries = s.queue.entries ++ spawned ++ [task])
      (live : s'.live = s.live + spawned.length)
      (completed : s'.completed = s.completed) (failed : s'.failed = s.failed)
  | retired (queue : s'.queue.entries = s.queue.entries ++ spawned)
      (live : s'.live + 1 = s.live + spawned.length)
      (counted : s'.completed = s.completed + 1 ∧ s'.failed = s.failed ∨
        s'.completed = s.completed ∧ s'.failed = s.failed + 1)

end Scheduler

namespace World

def accepted (w : World ρ ε) (task : Nat) : List Nat := if w.isDone task then [] else [task]

/-- The entries that are queued while a task is run; `inner` gives those of its routine. -/
def runSpawned (inner : Context ρ ε → List Nat) (task : Nat) (w : World ρ ε) : List Nat :=
  (w.entry task).elim [] inner

end World

def Op.spawned (inner : Context ρ ε → List Nat) (cx : Context ρ ε) : Op ρ ε → List Nat
  | .spawn task => cx.world.accepted task
  | .run task => cx.world.runSpawned inner task
  | _ => []

def Context.invokeFrameSpawned (inner : Context ρ ε → List Nat) (given : ρ) (cx : Context ρ ε) :
    List Nat :=
  match if cx.frames.rewinding then cx.frames.take .routine else .ok (given, cx.frames) with
  | .error _ => []
  | .ok (target, frames) => inner { cx with frames := frames.enter, object := target }

namespace Script

def spawned (execute : Context ρ ε → Ending Unit × Context ρ ε)
    (inner : Context ρ ε → List Nat) : Script ρ ε → Context ρ ε → List Nat
  | .done _, _ => []
  | .act op next, cx =>
    let performed := op.perform execute cx
    op.spawned inner cx ++ (next performed.1).spawned execute inner performed.2
  | .call body next, cx =>
    let called := Context.call (fun cx => (body ()).exec execute cx) cx
    (body ()).spawned execute inner { cx with frames := cx.frames.enter } ++
      (next called.1).spawned execute inner called.2
  | .invoke object next, cx =>
    let called := Context.invoke execute object cx
    Context.invokeFrameSpawned inner object { cx with frames := cx.frames.enter } ++
      (next called.1).spawned execute inner called.2

def executeSpawned (enter : ρ → Script ρ ε) : Nat → Context ρ ε → List Nat
  | 0, _ => []
  | depth + 1, cx =>
    (enter cx.object).spawned (execute enter depth) (executeSpawned enter depth) cx

end Script

namespace World

def dispatchSpawned (enter : ρ → Script ρ ε) (depth task : Nat) (w : World ρ ε) : List Nat :=
  if w.isDone task then []
  else
    let asked := w.isReady task
    if asked.1 then asked.2.runSpawned (Script.executeSpawned enter depth) task else []

def turnSpawned (enter : ρ → Script ρ ε) (depth : Nat) (w : World ρ ε) : List Nat :=
  w.timedOut.2.take?.elim [] fun taken => taken.2.dispatchSpawned enter depth taken.1

/-- The heads of the loop that a run comes to, each with the count of misses and with all that was
queued since the run began. -/
inductive Head (enter : ρ → Script ρ ε) (depth : Nat) (w : World ρ ε) :
    Nat → List Nat → World ρ ε → Prop
  | first : Head enter depth w 0 [] w.beginRun
  | next {misses later : Nat} {spawned : List Nat} {v v' : World ρ ε}
      (head : Head enter depth w misses spawned v)
      (goes : v.turn (Script.execute enter depth) misses = .next later v') :
      Head enter depth w later (spawned ++ v.turnSpawned enter depth) v'

end World

namespace Context

def Spawns (code : Context ρ ε → α × Context ρ ε) (spawned : Context ρ ε → List Nat) : Prop :=
  ∀ cx, (code cx).2.world.scheduler = cx.world.scheduler.spawnAll (spawned cx)

theorem recoverDepth_scheduler (cx : Context ρ ε) (trace : CallTrace) :
    (cx.recoverDepth trace).2.world.scheduler = cx.world.scheduler := by
  have counted : (cx.stackDepth trace).2.world.scheduler = cx.world.scheduler := rfl
  unfold recoverDepth
  split
  · next ran => rwa [ran] at counted
  · next ran => rwa [ran] at counted
  · next ran =>
    rw [ran] at counted
    split <;> exact counted

theorem invokeFrame_spawns {execute : Context ρ ε → Ending Unit × Context ρ ε}
    {inner : Context ρ ε → List Nat} (spawns : Spawns execute inner) (given : ρ) :
    Spawns (invokeFrame execute given) (invokeFrameSpawned inner given) := by
  intro cx
  simp only [invokeFrame, invokeFrameSpawned]
  generalize (if cx.frames.rewinding then cx.frames.take .routine else .ok (given, cx.frames) :
    Except FrameError (ρ × FrameStack ρ)) = target
  rcases target with _ | ⟨target, frames⟩
  · rfl
  · have called : (call execute { cx with frames, object := target }).2.world.scheduler =
        cx.world.scheduler.spawnAll
          (inner { cx with frames := frames.enter, object := target }) := by
      rw [call_world]
      exact spawns _
    dsimp only
    split
    · exact called
    · rwa [suspend_world]
    · exact called
    · exact called

end Context

namespace World

theorem spawn_scheduler (w : World ρ ε) (task : Nat) :
    (w.spawn task).scheduler = w.scheduler.spawnAll (w.accepted task) := by
  unfold spawn accepted
  split <;> rfl

theorem runTask_scheduler {execute : Context ρ ε → Ending α × Context ρ ε}
    {inner : Context ρ ε → List Nat} (spawns : Context.Spawns execute inner) (task : Nat)
    (w : World ρ ε) :
    (w.runTask execute task).2.scheduler = w.scheduler.spawnAll (w.runSpawned inner task) := by
  cases found : w.tasks[task]? with
  | none => simp [runTask, runSpawned, entry, found, Scheduler.spawnAll]
  | some t =>
    cases admitted : t.admission with
    | entered frames =>
      simp only [runTask, runSpawned, entry, found, admitted, Option.bind_some, Option.elim_some]
      exact spawns _
    | refused | cancelled | misused =>
      simp [runTask, runSpawned, entry, found, admitted, Scheduler.spawnAll, updateTask]

end World

namespace Op

theorem perform_spawns {execute : Context ρ ε → Ending Unit × Context ρ ε}
    {inner : Context ρ ε → List Nat} (spawns : Context.Spawns execute inner) (op : Op ρ ε) :
    Context.Spawns (fun cx => op.perform execute cx) (fun cx => op.spawned inner cx) := by
  intro cx
  cases op with
  | suspend suspension marker locals => exact congrArg World.scheduler (cx.suspend_world ..)
  | pause reason => exact congrArg World.scheduler (cx.pause_world reason)
  | recoverDepth trace => exact cx.recoverDepth_scheduler trace
  | run task => exact World.runTask_scheduler spawns task cx.world
  | spawn task => exact cx.world.spawn_scheduler task
  | _ => rfl

end Op

namespace Script

theorem exec_spawns {execute : Context ρ ε → Ending Unit × Context ρ ε}
    {inner : Context ρ ε → List Nat} (spawns : Context.Spawns execute inner)
    (script : Script ρ ε) :
    Context.Spawns (script.exec execute) (script.spawned execute inner) := by
  induction script with
  | done ending => exact fun cx => rfl
  | act op next ih =>
    intro cx
    have performed := Op.perform_spawns spawns op cx
    simp only [exec, spawned, Scheduler.spawnAll_append, ← performed]
    exact ih _ _
  | call body next bodyIh ih =>
    intro cx
    have called := bodyIh () { cx with frames := cx.frames.enter }
    rw [← Context.call_world (fun cx => (body ()).exec execute cx) cx] at called
    simp only [exec, spawned, Scheduler.spawnAll_append, ← called]
    exact ih _ _
  | invoke object next ih =>
    intro cx
    have called := Context.invokeFrame_spawns spawns object { cx with frames := cx.frames.enter }
    rw [← Context.call_world (Context.invokeFrame execute object) cx] at called
    simp only [exec, spawned, Scheduler.spawnAll_append, ← called]
    exact ih _ _

theorem execute_spawns (enter : ρ → Script ρ ε) (depth : Nat) :
    Context.Spawns (execute enter depth) (executeSpawned enter depth) := by
  induction depth with
  | zero => exact fun cx => rfl
  | succ depth ih => exact fun cx => exec_spawns ih (enter cx.object) cx

end Script

namespace Scheduler

theorem Dispatched.balanced {s s' : Scheduler} {task : Nat} {spawned : List Nat}
    (taken : s.live = s.queue.size + 1) (dispatched : Dispatched task spawned s s') :
    s'.Balanced := by
  simp only [RunQueue.size] at taken
  cases dispatched with
  | putBack queue live =>
    simp only [Balanced, RunQueue.size, queue, live, List.length_append, List.length_singleton]
    omega
  | retired queue live =>
    simp only [Balanced, RunQueue.size, queue, List.length_append]
    omega

theorem Dispatched.accounted {s s' : Scheduler} {task : Nat} {spawned : List Nat}
    (dispatched : Dispatched task spawned s s') :
    s'.completed + s'.failed + s'.live = s.completed + s.failed + s.live + spawned.length := by
  cases dispatched <;> omega

end Scheduler

namespace World

theorem verdict_scheduler (task : Nat) (w : World ρ ε) (answer : RunAnswer) :
    ∃ lastProgress, (w.verdict task answer).2.scheduler = { w.scheduler with lastProgress } := by
  rcases w.verdict_world task answer with same | same
  · rw [same]
    exact ⟨_, rfl⟩
  · rw [same]
    exact ⟨_, rfl⟩

open Scheduler in
theorem settle_dispatched {s : Scheduler} {w : World ρ ε} {spawned : List Nat} (held : s.live ≠ 0)
    (queued : ∃ lastProgress, w.scheduler = { s.spawnAll spawned with lastProgress })
    (task : Nat) (verdict : Verdict) :
    Dispatched task spawned s (w.settle task verdict).2.scheduler := by
  obtain ⟨lastProgress, queued⟩ := queued
  rw [spawnAll_eq] at queued
  cases verdict with
  | putBack moved =>
    simp only [settle, updateScheduler, queued]
    exact .putBack rfl rfl rfl rfl
  | retired abandoned =>
    simp only [settle, updateScheduler, queued]
    have dropped : s.live + spawned.length - 1 + 1 = s.live + spawned.length := by omega
    cases abandoned with
    | true => exact .retired rfl dropped (.inr ⟨rfl, rfl⟩)
    | false => exact .retired rfl dropped (.inl ⟨rfl, rfl⟩)

theorem dispatch_dispatched {w : World ρ ε} (held : w.scheduler.live ≠ 0)
    (enter : ρ → Script ρ ε) (depth task : Nat) :
    Scheduler.Dispatched task (w.dispatchSpawned enter depth task) w.scheduler
      (w.dispatch (Script.execute enter depth) task).2.scheduler := by
  simp only [dispatch, dispatchSpawned]
  split
  · exact settle_dispatched held ⟨_, rfl⟩ task _
  · split
    · have ran := runTask_scheduler (Script.execute_spawns enter depth) task (w.isReady task).2
      obtain ⟨lastProgress, decided⟩ := verdict_scheduler task
        ((w.isReady task).2.runTask (Script.execute enter depth) task).2
        ((w.isReady task).2.runTask (Script.execute enter depth) task).1
      rw [ran] at decided
      exact settle_dispatched held ⟨lastProgress, decided⟩ task _
    · exact settle_dispatched held ⟨_, rfl⟩ task _

theorem dispatch_becomes {execute : Context ρ ε → Ending α × Context ρ ε}
    (respects : Context.Respects execute) {w : World ρ ε} (sound : w.Sound) (task : Nat) :
    w.Becomes (w.dispatch execute task).2 := by
  have asked := isReady_becomes sound task
  simp only [dispatch]
  split
  · exact Becomes.of_tasks_eq sound (settle_tasks ..)
  · split
    · have ran := (runTask_settles respects asked.sound task).1
      refine (asked.trans ran).trans (Becomes.of_tasks_eq ran.sound ?_)
      rw [settle_tasks, verdict_tasks]
    · exact asked.trans (Becomes.of_tasks_eq asked.sound (settle_tasks ..))

/-- What holds at every head of the loop of a run that began in `w`, when `spawned` were queued
since. -/
structure Accounted (w : World ρ ε) (spawned : List Nat) (v : World ρ ε) : Prop where
  idle : v.Idle
  balanced : v.scheduler.Balanced
  total : v.scheduler.completed + v.scheduler.failed + v.scheduler.live =
    w.scheduler.live + spawned.length

theorem take?_live {w taken : World ρ ε} {task : Nat} (balanced : w.scheduler.Balanced)
    (took : w.take? = some (task, taken)) :
    taken.scheduler.live = taken.scheduler.queue.size + 1 := by
  obtain ⟨rest, queued, rfl⟩ := take?_eq_some_iff.mp took
  simpa [Scheduler.Balanced, RunQueue.size, queued, updateScheduler] using balanced

theorem take?_of_live {w : World ρ ε} (balanced : w.scheduler.Balanced)
    (live : w.scheduler.live ≠ 0) : ∃ task taken, w.take? = some (task, taken) := by
  cases took : w.take? with
  | none =>
    have empty := take?_eq_none_iff.mp took
    simp only [Scheduler.Balanced, RunQueue.size, empty, List.length_nil] at balanced
    exact absurd balanced live
  | some taken => exact ⟨taken.1, taken.2, rfl⟩

namespace Accounted

variable {w v v' : World ρ ε} {spawned : List Nat}

theorem of_same (accounted : Accounted w spawned v) (tasks : v'.tasks = v.tasks)
    (scheduler : v'.scheduler = v.scheduler) : Accounted w spawned v' where
  idle := (Becomes.of_tasks_eq accounted.idle.sound tasks).idle accounted.idle
  balanced := scheduler ▸ accounted.balanced
  total := scheduler ▸ accounted.total

theorem begin (idle : w.Idle) (balanced : w.scheduler.Balanced) :
    Accounted w [] w.beginRun where
  idle := idle
  balanced := balanced
  total := by simp [beginRun, progress, updateScheduler, readClock]

theorem dispatch {taken : World ρ ε} {task : Nat} (accounted : Accounted w spawned v)
    (took : v.take? = some (task, taken))
    (enter : ρ → Script ρ ε) (depth : Nat) :
    Accounted w (spawned ++ taken.dispatchSpawned enter depth task)
      (taken.dispatch (Script.execute enter depth) task).2 := by
  have held := take?_live accounted.balanced took
  have dispatched := dispatch_dispatched (show taken.scheduler.live ≠ 0 by omega) enter depth task
  obtain ⟨rest, queued, same⟩ := take?_eq_some_iff.mp took
  have idle : taken.Idle := same ▸ accounted.idle
  have total : taken.scheduler.completed + taken.scheduler.failed + taken.scheduler.live =
      w.scheduler.live + spawned.length := same ▸ accounted.total
  refine ⟨?_, dispatched.balanced held, ?_⟩
  · exact (dispatch_becomes (Script.execute_respects enter depth) idle.sound task).idle idle
  · rw [dispatched.accounted, total, List.length_append, Nat.add_assoc]

theorem turned {enter : ρ → Script ρ ε} {depth misses later : Nat}
    (accounted : Accounted w spawned v) (live : v.scheduler.live ≠ 0)
    (turned : v.Turned (Script.execute enter depth) misses later v') :
    Accounted w (spawned ++ v.turnSpawned enter depth) v' := by
  have checked : Accounted w spawned v.timedOut.2 :=
    accounted.of_same v.timedOut_tasks v.timedOut_scheduler
  rw [← v.timedOut_scheduler] at live
  cases turned with
  | starved empty =>
    obtain ⟨task, taken, took⟩ := take?_of_live checked.balanced live
    rw [took] at empty
    cases empty
  | moved took | missed took =>
    simp only [turnSpawned, took, Option.elim_some]
    exact checked.dispatch took enter depth
  | swept took =>
    simp only [turnSpawned, took, Option.elim_some]
    exact (checked.dispatch took enter depth).of_same rfl rfl

theorem head {enter : ρ → Script ρ ε} {depth misses : Nat} (idle : w.Idle)
    (balanced : w.scheduler.Balanced) (head : Head enter depth w misses spawned v) :
    Accounted w spawned v := by
  induction head with
  | first => exact begin idle balanced
  | next _ goes ih =>
    obtain ⟨live, -, turned⟩ := turned_of_next goes
    exact ih.turned live turned

theorem stopped {execute : Context ρ ε → Ending α × Context ρ ε} {misses : Nat}
    (accounted : Accounted w spawned v) (stops : v.turn execute misses = .stopped v') :
    Accounted w spawned v' := by
  rcases turn_cases execute misses v with ⟨_, turns⟩ | ⟨_, turns⟩ | ⟨_, _, _, _, turns, _⟩
  · rw [turns] at stops
    cases stops
    exact accounted
  · rw [turns] at stops
    cases stops
    exact accounted.of_same v.timedOut_tasks v.timedOut_scheduler
  · rw [turns] at stops
    cases stops

end Accounted

theorem Head.stops {enter : ρ → Script ρ ε} {depth turns misses : Nat} {w v w' : World ρ ε}
    {spawned : List Nat} (head : Head enter depth w misses spawned v)
    (finished : runTurns (Script.execute enter depth) turns misses v = some w') :
    ∃ misses spawned v, Head enter depth w misses spawned v ∧
      v.turn (Script.execute enter depth) misses = .stopped w' := by
  induction turns generalizing misses spawned v with
  | zero => cases finished
  | succ turns ih =>
    simp only [runTurns] at finished
    split at finished
    · next stops =>
      cases finished
      exact ⟨misses, spawned, v, head, stops⟩
    · next goes => exact ih (head.next goes) finished

theorem runCurrentThread_stops {enter : ρ → Script ρ ε} {depth turns : Nat} {w w' : World ρ ε}
    {report : SchedulerReport}
    (finished : w.runCurrentThread (Script.execute enter depth) turns = some (report, w')) :
    report = w'.scheduler.report ∧ ∃ misses spawned v, Head enter depth w misses spawned v ∧
      v.turn (Script.execute enter depth) misses = .stopped w' := by
  obtain ⟨stopped, ended, same⟩ := Option.map_eq_some_iff.mp finished
  cases same
  exact ⟨rfl, Head.stops .first ended⟩

theorem serve_settles {w w' : World ρ ε} (idle : w.Idle) (balanced : w.scheduler.Balanced)
    (call : SchedulerCall ρ ε) (served : w.serve call = some w') :
    w'.Idle ∧ w'.scheduler.Balanced := by
  have spawned : ∀ {v : World ρ ε} (task : Nat), v.Idle → v.scheduler.Balanced →
      (v.spawn task).Idle ∧ (v.spawn task).scheduler.Balanced := by
    intro v task idle balanced
    refine ⟨(spawn_becomes idle.sound task).idle idle, ?_⟩
    rw [spawn_scheduler]
    exact balanced.spawnAll _
  cases call with
  | onTask call =>
    cases served
    refine ⟨(answer_settles idle call).1, ?_⟩
    cases call with
    | run task enter depth =>
      simp only [answer, runTask_scheduler (Script.execute_spawns enter depth)]
      exact balanced.spawnAll _
    | create | cancel | ask => exact balanced
  | release latch =>
    cases served
    exact ⟨idle, balanced⟩
  | openScheduler settings choice =>
    cases served
    exact ⟨idle, rfl⟩
  | spawn task =>
    cases served
    exact spawned task idle balanced
  | spawnRoutine entry =>
    cases served
    exact spawned _ (addTask_idle idle entry _) balanced
  | drive enter depth turns =>
    obtain ⟨⟨report, _⟩, finished, rfl⟩ := Option.map_eq_some_iff.mp served
    obtain ⟨-, misses, spawned, v, head, stops⟩ := runCurrentThread_stops finished
    have accounted := (Accounted.head idle balanced head).stopped stops
    exact ⟨accounted.idle, accounted.balanced⟩

theorem serveAll_settles {w w' : World ρ ε} (idle : w.Idle) (balanced : w.scheduler.Balanced)
    (calls : List (SchedulerCall ρ ε)) (served : w.serveAll calls = some w') :
    w'.Idle ∧ w'.scheduler.Balanced := by
  induction calls generalizing w with
  | nil =>
    cases served
    exact ⟨idle, balanced⟩
  | cons call rest ih =>
    obtain ⟨v, first, later⟩ := Option.bind_eq_some_iff.mp served
    obtain ⟨idle, balanced⟩ := serve_settles idle balanced call first
    exact ih idle balanced later

/-- After every history of a scheduler, in every run on one thread: at each head of the loop as many
tasks are live as are queued, so that there is an entry to take while a task is live; no dispatch
panics, and each one puts the entry back or retires it once; and the report accounts for the tasks
that were live at the start and for those that were queued since. -/
theorem scheduler_conserves_entries (w : World ρ ε) (settings : Settings)
    (choice : ClassifierChoice) (calls : List (SchedulerCall ρ ε)) {start : World ρ ε}
    (served : ({ w with tasks := [] }.openScheduler settings choice).serveAll calls = some start)
    (enter : ρ → Script ρ ε) (depth : Nat) :
    (∀ misses spawned v, Head enter depth start misses spawned v →
      v.scheduler.live = v.scheduler.queue.size ∧
      (v.scheduler.live ≠ 0 → ∃ task taken, v.timedOut.2.take? = some (task, taken) ∧
        (∀ misuse, ((taken.isReady task).2.runTask (Script.execute enter depth) task).1 ≠
          .misused misuse) ∧
        Scheduler.Dispatched task (v.turnSpawned enter depth) taken.scheduler
          (taken.dispatch (Script.execute enter depth) task).2.scheduler)) ∧
    ∀ turns report w',
      start.runCurrentThread (Script.execute enter depth) turns = some (report, w') →
      ∃ misses spawned v, Head enter depth start misses spawned v ∧
        v.turn (Script.execute enter depth) misses = .stopped w' ∧
        report.completed + report.failed + report.pending =
          start.scheduler.live + spawned.length := by
  have opened : ({ w with tasks := [] }.openScheduler settings choice).Idle := idle_of_empty w
  obtain ⟨idle, balanced⟩ := serveAll_settles opened rfl calls served
  constructor
  · intro misses spawned v head
    have accounted := Accounted.head idle balanced head
    refine ⟨accounted.balanced, fun live => ?_⟩
    have checked : Accounted start spawned v.timedOut.2 :=
      accounted.of_same v.timedOut_tasks v.timedOut_scheduler
    rw [← v.timedOut_scheduler] at live
    obtain ⟨task, taken, took⟩ := take?_of_live checked.balanced live
    have held := take?_live checked.balanced took
    obtain ⟨rest, queued, same⟩ := take?_eq_some_iff.mp took
    refine ⟨task, taken, took, ?_, ?_⟩
    · have sound : taken.Sound := same ▸ checked.idle.sound
      exact (runTask_settles (Script.execute_respects enter depth)
        (isReady_becomes sound task).sound task).2
    · simp only [turnSpawned, took, Option.elim_some]
      exact dispatch_dispatched (by omega) enter depth task
  · intro turns report w' finished
    obtain ⟨rfl, misses, spawned, v, head, stops⟩ := runCurrentThread_stops finished
    have accounted := (Accounted.head idle balanced head).stopped stops
    exact ⟨misses, spawned, v, head, stops, accounted.total⟩

def relay (queues : Bool) : Script Bool Unit :=
  if queues then .act (.spawn 1) fun _ => .done (.returned .unit) else .done (.returned .unit)

/-- A task is queued twice, and the first of its runs queues another one. -/
def relayed : List (SchedulerCall Bool Unit) :=
  [.onTask (.create true 0), .onTask (.create false 0), .spawn 0, .spawn 0]

theorem repeated_entries_are_conserved : ∃ start w',
    (({ tasks := [], scheduler := default } : World Bool Unit).openScheduler
      (.standard 1) (.given 0)).serveAll relayed = some start ∧ start.scheduler.live = 2 ∧
    start.runCurrentThread (Script.execute relay 1) 4 = some (⟨3, 0, 0⟩, w') ∧
    ∃ misses spawned v, Head relay 1 start misses spawned v ∧
      v.turn (Script.execute relay 1) misses = .stopped w' ∧
      3 + 0 + 0 = 2 + spawned.length := by
  have evaluated : ((({ tasks := [], scheduler := default } : World Bool Unit).openScheduler
      (.standard 1) (.given 0)).serveAll relayed).bind (fun start =>
        (start.runCurrentThread (Script.execute relay 1) 4).map fun ran =>
          (start.scheduler.live, ran.1)) = some (2, ⟨3, 0, 0⟩) := rfl
  obtain ⟨start, served, ran⟩ := Option.bind_eq_some_iff.mp evaluated
  obtain ⟨⟨report, w'⟩, finished, counts⟩ := Option.map_eq_some_iff.mp ran
  obtain ⟨live, rfl⟩ := Prod.mk.inj counts
  refine ⟨start, w', served, live, finished, ?_⟩
  have conserved := (scheduler_conserves_entries { scheduler := default } (.standard 1) (.given 0)
    relayed served relay 1).2 4 _ w' finished
  rwa [live] at conserved

end World
end ResumableTasks
