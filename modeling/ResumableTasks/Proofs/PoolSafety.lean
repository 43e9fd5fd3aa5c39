import Mathlib.Data.List.Nodup
import ResumableTasks.Scheduler.Pool
import ResumableTasks.Proofs.SchedulerCompletion
/-!
A pool of workers loses no task and shares none, in whatever order the workers take their steps. A
task stands in the queue, or with the one worker that took it, or is retired for good. Whoever holds
a task is the only one to touch it, so that each task goes along its own course under any number of
workers, and comes to the outcome that it has on one thread.
-/
namespace ResumableTasks

variable {ρ ε α : Type}

def Worker.retiring : Worker → Option Nat
  | .dropping task => some task
  | _ => none

namespace Pool

def held (p : Pool ρ ε) : List Nat := p.workers.filterMap Worker.held

/-- A pool for which so many threads could be started. If none could, the caller does the work. -/
def manned (threads : Nat) (w : World ρ ε) : Pool ρ ε :=
  ⟨List.replicate (max threads 1) (.looking 0), w.beginRun⟩

theorem start_eq_manned {w : World ρ ε} (threaded : 1 ≤ w.scheduler.settings.workerThreads) :
    start w = manned w.scheduler.settings.workerThreads w := by
  rw [start, manned, Nat.max_eq_left threaded]

def retiredBy (p : Pool ρ ε) (worker : Nat) : List Nat :=
  (p.workers[worker]?.bind Worker.retiring).toList

def retired (execute : Context ρ ε → Ending α × Context ρ ε) :
    Pool ρ ε → List Nat → List Nat
  | _, [] => []
  | p, worker :: rest => p.retiredBy worker ++ retired execute (p.step execute worker) rest

end Pool

theorem Scheduler.count_counters (s : Scheduler) (abandoned : Bool) :
    (s.count abandoned).queue = s.queue ∧ (s.count abandoned).live = s.live ∧
      (s.count abandoned).completed + (s.count abandoned).failed =
        s.completed + s.failed + 1 := by
  cases abandoned with
  | true => exact ⟨rfl, rfl, rfl⟩
  | false => exact ⟨rfl, rfl, Nat.add_right_comm ..⟩

/-- The tasks that were spawned are in the queue, held or retired, each of them once; the counters
say how many of them, and no worker leaves while one is live. -/
structure Tallied (spawned retired : List Nat) (workers : List Worker) (s : Scheduler) : Prop where
  split : (s.queue.entries ++ workers.filterMap Worker.held ++ retired).Perm spawned
  live : s.live = s.queue.entries.length + (workers.filterMap Worker.held).length
  counted : s.completed + s.failed =
    retired.length + (workers.filterMap Worker.retiring).length
  leaves : .left ∈ workers → s.live = 0

namespace World

def OnCourse (execute : Context ρ ε → Ending α × Context ρ ε) (start : World ρ ε) (i : Nat)
    (w : World ρ ε) : Prop :=
  ∃ steps, StandsAt execute start i steps w

theorem OnCourse.congr {execute : Context ρ ε → Ending α × Context ρ ε} {start w w' : World ρ ε}
    {i : Nat} (course : OnCourse execute start i w) (tasks : w'.tasks[i]? = w.tasks[i]?)
    (effects : w'.effectsOf i = w.effectsOf i) : OnCourse execute start i w' := by
  obtain ⟨steps, stands⟩ := course
  exact ⟨steps, stands.congr tasks effects⟩

theorem OnCourse.ends {execute : Context ρ ε → Ending α × Context ρ ε} {start w : World ρ ε}
    {i : Nat} (course : OnCourse execute start i w) (done : w.isDone i = true) :
    ∃ steps, ∀ t, start.tasks[i]? = some t →
      (t.course execute start.latches steps).1.isDone = true := by
  obtain ⟨steps, t, began, _, found, _⟩ := course
  refine ⟨steps, fun t' began' => ?_⟩
  obtain rfl := Option.some.inj (began.symm.trans began')
  exact (isDone_of_found found).symm.trans done

theorem OnCourse.same_end {execute : Context ρ ε → Ending α × Context ρ ε} {start w w' : World ρ ε}
    {i : Nat} (confined : Context.Confined Eq execute) (course : OnCourse execute start i w)
    (done : w.isDone i = true) (course' : OnCourse execute start i w')
    (done' : w'.isDone i = true) :
    ∃ outcome, w.tasks[i]?.bind Task.exit = some outcome ∧
      w'.tasks[i]?.bind Task.exit = some outcome ∧ w.effectsOf i = w'.effectsOf i := by
  obtain ⟨steps, t, began, settled, found, effects⟩ := course
  obtain ⟨later, t', began', _, found', effects'⟩ := course'
  obtain rfl := Option.some.inj (began.symm.trans began')
  rw [isDone_of_found found] at done
  rw [isDone_of_found found'] at done'
  have same : t.course execute start.latches steps = t.course execute start.latches later :=
    (Task.course_done done (Nat.le_max_left steps later)).symm.trans
      (Task.course_done done' (Nat.le_max_right steps later))
  rw [← same] at found' effects'
  obtain ⟨outcome, exit⟩ := (Task.course_settled confined settled steps).exit_of_done done
  refine ⟨outcome, ?_, ?_, effects.trans effects'.symm⟩
  · rw [found, Option.bind_some, exit]
  · rw [found', Option.bind_some, exit]

end World

open World

def Worker.Agrees (execute : Context ρ ε → Ending α × Context ρ ε) (start w : World ρ ε) :
    Worker → Prop
  | .looking _ | .taking _ | .left => True
  | .asking _ i | .putting _ i _ => OnCourse execute start i w ∧ w.isDone i = false
  | .running _ i => ∃ steps, CalledUp execute start i steps w
  | .settling _ i answer => OnCourse execute start i w ∧ answer.Tells (w.isDone i)
  | .counting i _ | .dropping i => OnCourse execute start i w ∧ w.isDone i = true

/-- The tasks in the queue wait, those that nobody has any more are done, and the workers agree with
the world. -/
structure Tended (execute : Context ρ ε → Ending α × Context ρ ε) (start : World ρ ε)
    (order : List Nat) (workers : List Worker) (w : World ρ ε) : Prop where
  latches : w.latches = start.latches
  untimed : w.scheduler.settings.idleTimeout = none
  waiting : ∀ i ∈ w.scheduler.queue.entries, OnCourse execute start i w ∧ w.isDone i = false
  done : ∀ i ∈ order, i ∉ w.scheduler.queue.entries → i ∉ workers.filterMap Worker.held →
    OnCourse execute start i w ∧ w.isDone i = true
  phases : ∀ phase ∈ workers, phase.Agrees execute start w

/-- One step of a worker, seen by what it does with its task and with the queue. While it works on
the task nobody else can tell. -/
inductive Worker.Stepped (execute : Context ρ ε → Ending α × Context ρ ε) (start w : World ρ ε) :
    Worker → Worker → World ρ ε → Prop
  | leaves {misses : Nat} (idle : w.scheduler.live = 0) :
      Stepped execute start w (.looking misses) .left w
  | looks {misses : Nat} : Stepped execute start w (.looking misses) (.taking misses) w
  | starves {misses : Nat} : Stepped execute start w (.taking misses) (.looking misses) w.sleep
  | takes {misses i : Nat} {rest : List Nat} (queued : w.scheduler.queue.entries = i :: rest) :
      Stepped execute start w (.taking misses) (.asking misses i)
        (w.updateScheduler ({ · with queue := ⟨rest⟩ }))
  | works {phase phase' : Worker} {i : Nat} {w' : World ρ ε} (holds : phase.held = some i)
      (keeps : phase'.held = some i) (early : phase.retiring = none)
      (later : phase'.retiring = none) (spares : Spares i w w')
      (agrees : phase'.Agrees execute start w') : Stepped execute start w phase phase' w'
  | puts {misses i misses' : Nat} {moved : Bool} {w' : World ρ ε} (tasks : w'.tasks = w.tasks)
      (log : w'.log = w.log) (latches : w'.latches = w.latches)
      (scheduler : w'.scheduler = w.scheduler.enqueue i) :
      Stepped execute start w (.putting misses i moved) (.looking misses') w'
  | counts {i : Nat} {abandoned : Bool} :
      Stepped execute start w (.counting i abandoned) (.dropping i)
        (w.updateScheduler (·.count abandoned))
  | drops {i : Nat} :
      Stepped execute start w (.dropping i) (.looking 0) (w.updateScheduler (·.drop))
  | rests : Stepped execute start w .left .left w

section

variable {execute : Context ρ ε → Ending α × Context ρ ε} {start w : World ρ ε}

theorem Worker.step_cases (confined : Context.Confined Eq execute)
    (untimed : w.scheduler.settings.idleTimeout = none) (latches : w.latches = start.latches)
    {phase : Worker} (agrees : phase.Agrees execute start w) :
    Stepped execute start w phase (phase.step execute w).1 (phase.step execute w).2 := by
  cases phase with
  | looking misses =>
    simp only [step, timedOut_unlimited untimed, Bool.false_eq_true, ↓reduceIte]
    split
    · next idle => exact .leaves idle
    · exact .looks
  | taking misses =>
    simp only [step]
    split
    · exact .starves
    · next i queue popped =>
      have took : w.take? = some (i, w.updateScheduler ({ · with queue })) := by
        simp [take?, popped]
      obtain ⟨rest, queued, same⟩ := take?_eq_some_iff.mp took
      rw [same]
      exact .takes queued
  | asking misses i =>
    obtain ⟨⟨steps, stands⟩, unfinished⟩ := agrees
    have waits : (w.isReady i).2.isDone i = false := (w.isReady_isDone i).trans unfinished
    have spares := isReady_spares w i
    simp only [step, unfinished, Bool.false_eq_true, ↓reduceIte]
    rcases stands.ask latches with ⟨ready, called⟩ | ⟨unready, stepped⟩ | ⟨unready, stays, _⟩
    · simp only [ready, ↓reduceIte]
      exact .works rfl rfl rfl rfl spares ⟨steps, called⟩
    · simp only [unready, Bool.false_eq_true, ↓reduceIte]
      exact .works rfl rfl rfl rfl spares ⟨⟨steps + 1, stepped⟩, waits⟩
    · simp only [unready, Bool.false_eq_true, ↓reduceIte]
      exact .works rfl rfl rfl rfl spares ⟨⟨steps, stays⟩, waits⟩
  | running misses i =>
    obtain ⟨steps, called⟩ := agrees
    obtain ⟨spares, stands, answers⟩ := called.run confined
    exact .works rfl rfl rfl rfl spares ⟨⟨steps + 1, stands⟩, answers⟩
  | settling misses i answer =>
    obtain ⟨⟨steps, stands⟩, answers⟩ := agrees
    have retires := verdict_retires answers
    have isDone : (w.verdict i answer).2.isDone i = w.isDone i := by
      simp only [World.isDone, verdict_tasks]
    rw [← isDone] at retires
    have decided : OnCourse execute start i (w.verdict i answer).2 := ⟨steps, stands.verdict answer⟩
    have spares := verdict_spares i i w answer
    simp only [step]
    cases verdict : (w.verdict i answer).1 with
    | putBack moved =>
      rw [verdict] at retires
      exact .works rfl rfl rfl rfl spares ⟨decided, retires.symm⟩
    | retired abandoned =>
      rw [verdict] at retires
      exact .works rfl rfl rfl rfl spares ⟨decided, retires.symm⟩
  | putting misses i moved =>
    simp only [step]
    split
    · exact .puts rfl rfl rfl rfl
    · simp only [afterMiss]
      split
      · exact .puts rfl rfl rfl rfl
      · exact .puts rfl rfl rfl rfl
  | counting i abandoned => exact .counts
  | dropping i => exact .drops
  | left => exact .rests

theorem filterMap_cons_toList (f : Worker → Option Nat) (phase : Worker) (others : List Worker) :
    (phase :: others).filterMap f = (f phase).toList ++ others.filterMap f := by
  cases found : f phase with
  | none => rw [List.filterMap_cons_none found, Option.toList_none, List.nil_append]
  | some i => rw [List.filterMap_cons_some found, Option.toList_some, List.singleton_append]

theorem tallied_cons {spawned retired : List Nat} {phase : Worker} {others : List Worker}
    {s : Scheduler} :
    Tallied spawned retired (phase :: others) s ↔
      (∀ i, s.queue.entries.count i + (phase.held.toList.count i +
        (others.filterMap Worker.held).count i) + retired.count i = spawned.count i) ∧
      s.live = s.queue.entries.length + (phase.held.toList.length +
        (others.filterMap Worker.held).length) ∧
      s.completed + s.failed = retired.length + (phase.retiring.toList.length +
        (others.filterMap Worker.retiring).length) ∧
      (phase = .left ∨ .left ∈ others → s.live = 0) := by
  constructor
  · rintro ⟨split, live, counted, leaves⟩
    rw [filterMap_cons_toList] at split live counted
    rw [List.length_append] at live counted
    refine ⟨fun i => ?_, live, counted, fun gone => leaves ?_⟩
    · have same := split.count_eq i
      rwa [List.count_append, List.count_append, List.count_append] at same
    · exact List.mem_cons.mpr (gone.imp_left Eq.symm)
  · rintro ⟨split, live, counted, leaves⟩
    refine ⟨List.perm_iff_count.mpr fun i => ?_, ?_, ?_, fun gone => leaves ?_⟩
    · rw [filterMap_cons_toList, List.count_append, List.count_append, List.count_append]
      exact split i
    · rwa [filterMap_cons_toList, List.length_append]
    · rwa [filterMap_cons_toList, List.length_append]
    · exact (List.mem_cons.mp gone).imp_left Eq.symm

theorem Tallied.step {spawned retired : List Nat} {phase phase' : Worker} {others : List Worker}
    {w' : World ρ ε} (tallied : Tallied spawned retired (phase :: others) w.scheduler)
    (stepped : Worker.Stepped execute start w phase phase' w') :
    Tallied spawned (retired ++ phase.retiring.toList) (phase' :: others) w'.scheduler := by
  rw [tallied_cons] at tallied ⊢
  obtain ⟨split, live, counted, leaves⟩ := tallied
  have stays {later : Worker} (works : later ≠ .left) (gone : later = .left ∨ .left ∈ others) :
      w.scheduler.live = 0 := leaves (.inr (gone.resolve_left works))
  cases stepped with
  | leaves idle =>
    simp only [Worker.retiring, Option.toList_none, List.append_nil]
    exact ⟨split, live, counted, fun _ => idle⟩
  | looks | starves =>
    simp only [Worker.retiring, Option.toList_none, List.append_nil]
    exact ⟨split, live, counted, stays (by simp)⟩
  | rests =>
    simp only [Worker.retiring, Option.toList_none, List.append_nil]
    exact ⟨split, live, counted, fun _ => leaves (.inl rfl)⟩
  | @takes misses i rest queued =>
    simp only [Worker.retiring, Option.toList_none, List.append_nil]
    refine ⟨fun j => ?_, ?_, counted, stays (by simp)⟩
    · have same := split j
      simp only [queued, Worker.held, updateScheduler, Option.toList_some, Option.toList_none,
        List.count_cons, List.count_nil] at same ⊢
      omega
    · simp only [queued, Worker.held, updateScheduler, Option.toList_some, Option.toList_none,
        List.length_cons, List.length_nil] at live ⊢
      omega
  -- Whoever works on a task has it before the step and after it.
  | works holds keeps early later spares agrees =>
    obtain ⟨lastProgress, scheduler⟩ := spares.scheduler
    rw [holds] at split live
    rw [early] at counted
    rw [scheduler, keeps, early, later, Option.toList_none, List.append_nil]
    refine ⟨split, live, counted, stays ?_⟩
    rintro rfl
    cases keeps
  | @puts misses i misses' moved w' tasks log latches scheduler =>
    rw [scheduler]
    simp only [Worker.retiring, Option.toList_none, List.append_nil]
    refine ⟨fun j => ?_, ?_, counted, stays (by simp)⟩
    · have same := split j
      simp only [Worker.held, Scheduler.enqueue, RunQueue.push, Option.toList_some,
        Option.toList_none, List.count_append, List.count_cons, List.count_nil] at same ⊢
      omega
    · simp only [Worker.held, Scheduler.enqueue, RunQueue.push, Option.toList_some,
        Option.toList_none, List.length_append, List.length_cons, List.length_nil] at live ⊢
      omega
  | @counts i abandoned =>
    obtain ⟨queue, lives, total⟩ := w.scheduler.count_counters abandoned
    simp only [Worker.retiring, Option.toList_none, List.append_nil] at counted ⊢
    simp only [updateScheduler, queue, lives, total, Option.toList_some, List.length_singleton,
      List.length_nil] at counted ⊢
    exact ⟨split, live, by omega, stays (by simp)⟩
  | @drops i =>
    simp only [Worker.held, Worker.retiring, Option.toList_none, Option.toList_some,
      List.length_singleton] at split live counted ⊢
    refine ⟨fun j => ?_, ?_, ?_, fun gone => ?_⟩
    · have same := split j
      simp only [updateScheduler, Scheduler.drop, List.count_append, List.count_nil] at same ⊢
      omega
    · simp only [updateScheduler, Scheduler.drop, List.length_nil]
      omega
    · simp only [updateScheduler, Scheduler.drop, List.length_append, List.length_singleton,
        List.length_nil]
      omega
    · have idle := stays (by simp) gone
      omega

theorem Tallied.apart {spawned retired : List Nat} {phase : Worker} {others : List Worker}
    {s : Scheduler} (tallied : Tallied spawned retired (phase :: others) s)
    (distinct : spawned.Nodup) {i : Nat} (holds : phase.held = some i) :
    i ∉ s.queue.entries ∧ i ∉ others.filterMap Worker.held := by
  have once := List.nodup_iff_count_le_one.mp distinct i
  have split := (tallied_cons.mp tallied).1 i
  rw [holds, Option.toList_some, List.count_singleton_self] at split
  rw [← List.count_eq_zero, ← List.count_eq_zero]
  omega

theorem Worker.Agrees.congr {phase : Worker} (agrees : phase.Agrees execute start w)
    {w' : World ρ ε} (same : ∀ i, phase.held = some i →
      w'.tasks[i]? = w.tasks[i]? ∧ w'.effectsOf i = w.effectsOf i) :
    phase.Agrees execute start w' := by
  have isDone (i : Nat) (holds : phase.held = some i) : w'.isDone i = w.isDone i := by
    simp only [World.isDone, (same i holds).1]
  cases phase with
  | looking | taking | left => trivial
  | asking _ i | putting _ i | counting i | dropping i =>
    obtain ⟨tasks, effects⟩ := same i rfl
    exact ⟨agrees.1.congr tasks effects, (isDone i rfl).trans agrees.2⟩
  | running _ i =>
    obtain ⟨tasks, effects⟩ := same i rfl
    obtain ⟨steps, called⟩ := agrees
    exact ⟨steps, called.congr tasks effects⟩
  | settling _ i answer =>
    obtain ⟨tasks, effects⟩ := same i rfl
    refine ⟨agrees.1.congr tasks effects, ?_⟩
    rw [isDone i rfl]
    exact agrees.2

theorem not_held_cons {phase : Worker} {others : List Worker} {i : Nat} :
    i ∉ (phase :: others).filterMap Worker.held ↔
      phase.held ≠ some i ∧ i ∉ others.filterMap Worker.held := by
  rw [filterMap_cons_toList, List.mem_append, Option.mem_toList, not_or]

theorem Tended.works {order : List Nat} {phase phase' : Worker} {others : List Worker}
    {w' : World ρ ε} {i : Nat} (tended : Tended execute start order (phase :: others) w)
    (holds : phase.held = some i) (keeps : phase'.held = some i)
    (unqueued : i ∉ w.scheduler.queue.entries) (unshared : i ∉ others.filterMap Worker.held)
    (spares : Spares i w w') (agrees : phase'.Agrees execute start w') :
    Tended execute start order (phase' :: others) w' := by
  obtain ⟨latches, untimed, waiting, done, phases⟩ := tended
  obtain ⟨lastProgress, scheduler⟩ := spares.scheduler
  have spared (j : Nat) (elsewhere : j ≠ i) {done : Bool}
      (course : OnCourse execute start j w ∧ w.isDone j = done) :
      OnCourse execute start j w' ∧ w'.isDone j = done :=
    ⟨course.1.congr (spares.tasks j elsewhere) (spares.effects j elsewhere),
      (spares.isDone elsewhere).trans course.2⟩
  have queue : w'.scheduler.queue = w.scheduler.queue := by rw [scheduler]
  refine ⟨spares.latches.trans latches, by rw [scheduler]; exact untimed, fun j queued => ?_,
    fun j member absent free => ?_, List.forall_mem_cons.mpr ⟨agrees, fun other member => ?_⟩⟩
  · rw [queue] at queued
    exact spared j (fun here => unqueued (here ▸ queued)) (waiting j queued)
  · rw [queue] at absent
    obtain ⟨elsewhere, free⟩ := not_held_cons.mp free
    rw [keeps] at elsewhere
    refine spared j (fun here => elsewhere (congrArg some here.symm))
      (done j member absent (not_held_cons.mpr ⟨?_, free⟩))
    rwa [holds]
  -- The other workers have other tasks, and these stay as they were.
  · refine (phases other (List.mem_cons_of_mem _ member)).congr fun j held => ?_
    have elsewhere : j ≠ i := by
      rintro rfl
      exact unshared (List.mem_filterMap.mpr ⟨other, member, held⟩)
    exact ⟨spares.tasks j elsewhere, spares.effects j elsewhere⟩

theorem Tended.step {order : List Nat} {phase phase' : Worker} {others : List Worker}
    {w' : World ρ ε} (tended : Tended execute start order (phase :: others) w)
    (apart : ∀ i, phase.held = some i →
      i ∉ w.scheduler.queue.entries ∧ i ∉ others.filterMap Worker.held)
    (stepped : Worker.Stepped execute start w phase phase' w') :
    Tended execute start order (phase' :: others) w' := by
  obtain ⟨latches, untimed, waiting, given, phases⟩ := tended
  obtain ⟨own, theirs⟩ := List.forall_mem_cons.mp phases
  have finished (j : Nat) (member : j ∈ order) (absent : j ∉ w.scheduler.queue.entries)
      (unheld : phase.held ≠ some j) (free : j ∉ others.filterMap Worker.held) :=
    given j member absent (not_held_cons.mpr ⟨unheld, free⟩)
  cases stepped with
  | leaves | looks | starves | rests =>
    refine ⟨latches, untimed, waiting, fun j member absent free => ?_,
      List.forall_mem_cons.mpr ⟨trivial, theirs⟩⟩
    exact finished j member absent nofun (not_held_cons.mp free).2
  | @takes misses i rest queued =>
    rw [queued] at waiting
    obtain ⟨first, waiting⟩ := List.forall_mem_cons.mp waiting
    refine ⟨latches, untimed, waiting, fun j member absent free => ?_,
      List.forall_mem_cons.mpr ⟨first, theirs⟩⟩
    obtain ⟨elsewhere, free⟩ := not_held_cons.mp free
    refine finished j member ?_ nofun free
    rw [queued, List.mem_cons, not_or]
    exact ⟨fun here => elsewhere (here ▸ rfl), absent⟩
  | works holds keeps early later spares agrees =>
    obtain ⟨unqueued, unshared⟩ := apart _ holds
    exact Tended.works ⟨latches, untimed, waiting, given, phases⟩ holds keeps unqueued unshared
      spares agrees
  | @puts misses i misses' moved _ tasks log latched scheduler =>
    have same (j : Nat) {done : Bool} (course : OnCourse execute start j w ∧ w.isDone j = done) :
        OnCourse execute start j w' ∧ w'.isDone j = done := by
      refine ⟨course.1.congr (by rw [tasks]) (by simp only [effectsOf, log]), ?_⟩
      rw [← course.2]
      simp only [World.isDone, tasks]
    have queue : w'.scheduler.queue.entries = w.scheduler.queue.entries ++ [i] := by
      rw [scheduler]
      rfl
    refine ⟨latched.trans latches, by rw [scheduler]; exact untimed, fun j queued => ?_,
      fun j member absent free => ?_, List.forall_mem_cons.mpr ⟨trivial, fun other member => ?_⟩⟩
    · rw [queue, List.mem_append, List.mem_singleton] at queued
      rcases queued with queued | rfl
      · exact same j (waiting j queued)
      · exact same j own
    · rw [queue, List.mem_append, List.mem_singleton, not_or] at absent
      refine same j (finished j member absent.1 ?_ (not_held_cons.mp free).2)
      exact fun held => absent.2 (Option.some.inj held).symm
    · refine (theirs other member).congr fun j _ => ⟨by rw [tasks], by simp only [effectsOf, log]⟩
  | @counts i abandoned =>
    have unheld (j : Nat) (member : j ∈ order) (absent : j ∉ w.scheduler.queue.entries)
        (free : j ∉ (Worker.dropping i :: others).filterMap Worker.held) :=
      finished j member absent (not_held_cons.mp free).1 (not_held_cons.mp free).2
    cases abandoned <;>
      exact ⟨latches, untimed, waiting, unheld, List.forall_mem_cons.mpr ⟨own, theirs⟩⟩
  | @drops i =>
    refine ⟨latches, untimed, waiting, fun j member absent free => ?_,
      List.forall_mem_cons.mpr ⟨trivial, theirs⟩⟩
    by_cases here : j = i
    · subst here
      exact own
    · refine finished j member absent ?_ (not_held_cons.mp free).2
      exact fun held => here (Option.some.inj held).symm

theorem Tallied.perm {spawned retired : List Nat} {workers workers' : List Worker} {s : Scheduler}
    (tallied : Tallied spawned retired workers s) (same : workers.Perm workers') :
    Tallied spawned retired workers' s where
  split := (((same.symm.filterMap Worker.held).append_left _).append_right _).trans tallied.split
  live := by
    rw [← (same.filterMap Worker.held).length_eq]
    exact tallied.live
  counted := by
    rw [← (same.filterMap Worker.retiring).length_eq]
    exact tallied.counted
  leaves gone := tallied.leaves (same.mem_iff.mpr gone)

theorem Tended.perm {order : List Nat} {workers workers' : List Worker}
    (tended : Tended execute start order workers w) (same : workers.Perm workers') :
    Tended execute start order workers' w where
  latches := tended.latches
  untimed := tended.untimed
  waiting := tended.waiting
  done i member absent free :=
    tended.done i member absent fun held => free ((same.filterMap _).mem_iff.mp held)
  phases phase member := tended.phases phase (same.mem_iff.mpr member)

theorem exists_others {workers : List Worker} {worker : Nat} {phase : Worker}
    (present : workers[worker]? = some phase) :
    ∃ others, workers.Perm (phase :: others) ∧
      ∀ phase', (workers.set worker phase').Perm (phase' :: others) := by
  obtain ⟨inside, rfl⟩ := List.getElem?_eq_some_iff.mp present
  refine ⟨workers.take worker ++ workers.drop (worker + 1), ?_, fun phase' => ?_⟩
  · have whole := List.set_eq_take_append_cons_drop (l := workers) (i := worker)
      (a := workers[worker])
    rw [List.set_getElem_self, if_pos inside] at whole
    exact (List.Perm.of_eq whole).trans List.perm_middle
  · rw [List.set_eq_take_append_cons_drop, if_pos inside]
    exact List.perm_middle

namespace Pool

variable {p : Pool ρ ε} {order gone : List Nat}

/-- The accounts of a pool over the tasks of `order` balance when these tasks have been retired, and
all tasks are on their courses. -/
structure Safe (execute : Context ρ ε → Ending α × Context ρ ε) (start : World ρ ε)
    (order gone : List Nat) (p : Pool ρ ε) : Prop where
  tallied : Tallied (order.filter fun i => !start.isDone i) gone p.workers p.world.scheduler
  tended : Tended execute start order p.workers p.world

theorem Safe.step (confined : Context.Confined Eq execute) (distinct : order.Nodup)
    (safe : Safe execute start order gone p) (worker : Nat) :
    Safe execute start order (gone ++ p.retiredBy worker) (p.step execute worker) := by
  cases present : p.workers[worker]? with
  | none =>
    simp only [Pool.step, retiredBy, present, Option.bind_none, Option.toList_none, List.append_nil]
    exact safe
  | some phase =>
    obtain ⟨others, whole, after⟩ := exists_others present
    have tallied := safe.tallied.perm whole
    have tended := safe.tended.perm whole
    have stepped := Worker.step_cases confined tended.untimed tended.latches
      (tended.phases phase List.mem_cons_self)
    have apart {i : Nat} (holds : phase.held = some i) := tallied.apart (distinct.filter _) holds
    simp only [Pool.step, retiredBy, present, Option.bind_some]
    exact ⟨(tallied.step stepped).perm (after _).symm,
      (tended.step (fun _ => apart) stepped).perm (after _).symm⟩

theorem Safe.steps (confined : Context.Confined Eq execute) (distinct : order.Nodup)
    (safe : Safe execute start order gone p) (schedule : List Nat) :
    Safe execute start order (gone ++ p.retired execute schedule) (p.steps execute schedule) := by
  induction schedule generalizing p gone with
  | nil =>
    rw [retired, List.append_nil]
    exact safe
  | cons worker rest ih =>
    rw [retired, ← List.append_assoc]
    exact ih (safe.step confined distinct worker)

theorem steps_length (p : Pool ρ ε) (schedule : List Nat) :
    (p.steps execute schedule).workers.length = p.workers.length := by
  induction schedule generalizing p with
  | nil => rfl
  | cons worker rest ih =>
    refine (ih (p.step execute worker)).trans ?_
    simp only [Pool.step]
    split
    · rfl
    · exact List.length_set

theorem manned_workers (threads : Nat) (w : World ρ ε) (schedule : List Nat) :
    ((manned threads w).steps execute schedule).workers ≠ [] := by
  rw [← List.length_pos_iff, steps_length, manned, List.length_replicate]
  exact Nat.le_max_right threads 1

theorem Safe.alone (distinct : order.Nodup) (safe : Safe execute start order gone p)
    {first second i : Nat} (one : p.workers[first]?.bind Worker.held = some i)
    (two : p.workers[second]?.bind Worker.held = some i) : first = second := by
  have entries := safe.tallied.split.nodup_iff.mpr (distinct.filter _)
  have apart : p.workers.Pairwise fun a b =>
      ∀ task, a.held = some task → ∀ other, b.held = some other → task ≠ other :=
    List.pairwise_filterMap.mp (List.nodup_append.mp (List.nodup_append.mp entries).1).2.1
  obtain ⟨phase, present, holds⟩ := Option.bind_eq_some_iff.mp one
  obtain ⟨phase', present', holds'⟩ := Option.bind_eq_some_iff.mp two
  obtain ⟨inside, rfl⟩ := List.getElem?_eq_some_iff.mp present
  obtain ⟨inside', rfl⟩ := List.getElem?_eq_some_iff.mp present'
  rcases Nat.lt_trichotomy first second with before | same | after
  · exact absurd rfl (List.pairwise_iff_getElem.mp apart _ _ inside inside' before i holds i holds')
  · exact same
  · exact absurd rfl (List.pairwise_iff_getElem.mp apart _ _ inside' inside after i holds' i holds)

theorem Safe.finished (safe : Safe execute start order gone p) (manned : p.workers ≠ [])
    (finished : p.isOver = true) : p.world.scheduler.queue.entries = [] ∧
      p.world.scheduler.live = 0 ∧ p.world.scheduler.completed + p.world.scheduler.failed =
        (order.filter fun i => !start.isDone i).length ∧
      ∀ i ∈ order, OnCourse execute start i p.world ∧ p.world.isDone i = true := by
  have left (phase : Worker) (member : phase ∈ p.workers) : phase = .left := by
    simpa using List.all_eq_true.mp finished phase member
  have nobody (f : Worker → Option Nat) (nothing : f .left = none) :
      p.workers.filterMap f = [] := by
    refine List.filterMap_eq_nil_iff.mpr fun phase member => ?_
    rw [left phase member, nothing]
  have held := nobody Worker.held rfl
  obtain ⟨phase, member⟩ := List.exists_mem_of_ne_nil _ manned
  have idle : p.world.scheduler.live = 0 := safe.tallied.leaves (left phase member ▸ member)
  have empty : p.world.scheduler.queue.entries = [] := by
    have live := safe.tallied.live
    rw [idle] at live
    exact List.length_eq_zero_iff.mp (by omega)
  have split := safe.tallied.split
  have counted := safe.tallied.counted
  rw [held, empty, List.nil_append, List.nil_append] at split
  rw [nobody Worker.retiring rfl, List.length_nil, Nat.add_zero] at counted
  refine ⟨empty, idle, counted.trans split.length_eq, fun i listed => ?_⟩
  exact safe.tended.done i listed (by rw [empty]; exact List.not_mem_nil)
    (by rw [held]; exact List.not_mem_nil)

theorem manned_safe {w : World ρ ε} {settings : Settings} (untimed : settings.idleTimeout = none)
    (choice : ClassifierChoice) (distinct : order.Nodup)
    (settled : ∀ i ∈ order, ∃ t, w.tasks[i]? = some t ∧ t.Settled) (threads : Nat) :
    Safe execute w order []
      (manned threads (order.foldl spawn (w.openScheduler settings choice))) := by
  have begun : Underway execute w order (fun _ => 0) _ :=
    spawned_underway untimed choice distinct settled
  obtain ⟨latches, untimed, -, stands, roster⟩ := begun
  have same (i : Nat) : (order.foldl spawn (w.openScheduler settings choice)).beginRun.isDone i =
      w.isDone i := by
    rw [foldl_spawn]
    rfl
  have held : (List.replicate (max threads 1) (.looking 0)).filterMap Worker.held = [] :=
    List.filterMap_replicate_of_none rfl
  have retiring : (List.replicate (max threads 1) (.looking 0)).filterMap Worker.retiring = [] :=
    List.filterMap_replicate_of_none rfl
  constructor
  · constructor
    · simp only [manned, held, List.append_nil]
      refine (List.perm_ext_iff_of_nodup roster.distinct (distinct.filter _)).mpr fun i => ?_
      rw [roster.members i, same, List.mem_filter, Bool.not_eq_true']
    · simp only [manned, held, List.length_nil, Nat.add_zero]
      exact roster.balanced
    · simp only [manned, retiring]
      rfl
    · intro gone
      cases List.eq_of_mem_replicate gone
  · constructor
    · exact latches
    · exact untimed
    · intro i queued
      obtain ⟨member, waits⟩ := (roster.members i).mp queued
      exact ⟨⟨0, stands i member⟩, waits⟩
    · intro i member absent _
      refine ⟨⟨0, stands i member⟩, Bool.of_not_eq_false fun waits => absent ?_⟩
      exact (roster.members i).mpr ⟨member, waits⟩
    · intro phase member
      rw [List.eq_of_mem_replicate member]
      trivial

theorem runRounds_interleaved {rounds : Nat} {q : Pool ρ ε}
    (finished : runRounds execute rounds p = some q) :
    q.isOver = true ∧ ∃ schedule, q = p.steps execute schedule := by
  induction rounds generalizing p with
  | zero =>
    obtain ⟨left, same⟩ := Option.ite_none_right_eq_some.mp finished
    obtain rfl := Option.some.inj same
    exact ⟨left, [], rfl⟩
  | succ rounds ih =>
    rw [runRounds] at finished
    split at finished
    · next left =>
      obtain rfl := Option.some.inj finished
      exact ⟨left, [], rfl⟩
    · obtain ⟨left, later, same⟩ := ih finished
      -- A round is one step of each worker, in their order.
      refine ⟨left, List.range p.workers.length ++ later, same.trans ?_⟩
      exact (List.foldl_append ..).symm

theorem opened_threads (w : World ρ ε) (settings : Settings) (choice : ClassifierChoice)
    (order : List Nat) :
    1 ≤ (order.foldl spawn (w.openScheduler settings choice)).scheduler.settings.workerThreads := by
  rw [foldl_spawn]
  simp only [updateScheduler, Scheduler.spawnAll_eq]
  show 1 ≤ (Scheduler.adopt settings _).workerThreads
  simp only [Scheduler.adopt, Settings.normalize]
  split <;> omega

theorem runPool_reports (confined : Context.Confined Eq execute) {w : World ρ ε}
    {settings : Settings} (untimed : settings.idleTimeout = none) (choice : ClassifierChoice)
    (distinct : order.Nodup) (settled : ∀ i ∈ order, ∃ t, w.tasks[i]? = some t ∧ t.Settled)
    {rounds : Nat} {report : SchedulerReport} {w' : World ρ ε}
    (ran : (order.foldl spawn (w.openScheduler settings choice)).runPool execute rounds =
      some (report, w')) :
    report.pending = 0 ∧
      report.completed + report.failed = (order.filter fun i => !w.isDone i).length ∧
      ∀ i ∈ order, w'.isDone i = true := by
  obtain ⟨p, rounded, same⟩ := Option.map_eq_some_iff.mp ran
  obtain ⟨rfl, rfl⟩ := Prod.mk.inj same
  rw [start_eq_manned (opened_threads w settings choice order)] at rounded
  obtain ⟨finished, schedule, rfl⟩ := runRounds_interleaved rounded
  have begun (threads : Nat) : Safe execute w order [] _ :=
    manned_safe untimed choice distinct settled threads
  obtain ⟨-, idle, counted, done⟩ :=
    ((begun _).steps confined distinct schedule).finished (manned_workers _ _ _) finished
  exact ⟨idle, counted, fun i member => (done i member).2⟩

/-- However the steps of the workers interleave, the tasks that a pool was given are in the queue,
with one worker each, or retired. No worker leaves before the last task is retired, and the tasks
then have the outcomes that they have on one thread. -/
theorem workers_share_tasks_safely {enter : ρ → Script ρ ε}
    (independent : ∀ object, (enter object).Independent) (depth : Nat) (w : World ρ ε)
    {settings : Settings} (untimed : settings.idleTimeout = none) (choice : ClassifierChoice)
    {order : List Nat} (distinct : order.Nodup)
    (settled : ∀ i ∈ order, ∃ t, w.tasks[i]? = some t ∧ t.Settled)
    (threads : Nat) (schedule : List Nat) :
    let execute := Script.execute enter depth
    let spawned := order.filter fun i => !w.isDone i
    let started := order.foldl spawn (w.openScheduler settings choice)
    let p := (manned threads started).steps execute schedule
    let s := p.world.scheduler
    (s.queue.entries ++ p.held ++ (manned threads started).retired execute schedule).Perm spawned ∧
      (∀ first second i : Nat, p.workers[first]?.bind Worker.held = some i →
        p.workers[second]?.bind Worker.held = some i → first = second) ∧
      s.live = s.queue.size + p.held.length ∧
      (.left ∈ p.workers → s.live = 0) ∧
      (p.isOver = true → s.queue.entries = [] ∧ s.completed + s.failed = spawned.length ∧
        ∃ turns report w', started.runCurrentThread execute turns = some (report, w') ∧
          ∀ i ∈ order, ∃ outcome, p.world.tasks[i]?.bind Task.exit = some outcome ∧
            w'.tasks[i]?.bind Task.exit = some outcome ∧
            p.world.effectsOf i = w'.effectsOf i) := by
  have confined := Script.execute_confined WaitReason.likeness_eq independent
    (fun object => (enter object).indifferent_eq) depth
  have begun : Safe (Script.execute enter depth) w order [] _ :=
    manned_safe untimed choice distinct settled threads
  have safe := begun.steps confined distinct schedule
  refine ⟨safe.tallied.split, fun _ _ _ => safe.alone distinct, safe.tallied.live,
    safe.tallied.leaves, fun finished => ?_⟩
  obtain ⟨empty, -, counted, done⟩ := safe.finished (manned_workers _ _ _) finished
  have limited (i : Nat) (member : i ∈ order) := (done i member).1.ends (done i member).2
  choose! limit limits using limited
  obtain ⟨turns, steps, w', ends, last, complete⟩ :=
    (spawned_underway untimed choice distinct settled).completes confined limits 0
  refine ⟨empty, counted, turns, w'.scheduler.report, w',
    by simp only [runCurrentThread, ends, Option.map_some], fun i member => ?_⟩
  exact (done i member).1.same_end confined (done i member).2
    ⟨steps i, complete.stands i member⟩ (complete.roster.done last i member)

end Pool

end

namespace Errand

def shifts : List Nat := (List.replicate 40 [0, 1, 1]).flatten

def tended : Pool Errand Nat :=
  (Pool.manned 2 (started 2)).steps (Script.execute script 1) shifts

end Errand

theorem two_workers_share_errands_safely :
    Errand.tended.isOver = true ∧ Errand.tended.world.scheduler.queue.entries = [] ∧
      Errand.tended.world.scheduler.completed + Errand.tended.world.scheduler.failed = 5 ∧
      (∀ errand : Errand, errand.EndsIn Errand.tended.world) ∧
      ∃ turns report w', (Errand.started 2).runCurrentThread
          (Script.execute Errand.script 1) turns = some (report, w') ∧
        ∀ errand : Errand, errand.EndsIn w' := by
  have untimed : (Settings.standard 2).idleTimeout = none := rfl
  have settled : ∀ i ∈ Errand.order, ∃ t, Errand.world.tasks[i]? = some t ∧ t.Settled := by
    intro i member
    obtain ⟨t, found, settled, -⟩ := Errand.world_runsDown i member
    exact ⟨t, found, settled⟩
  have unfinished : (Errand.order.filter fun i => !Errand.world.isDone i).length = 5 := by decide
  have finished : Errand.tended.isOver = true := by decide +kernel
  have computed : ∀ errand ∈ Errand.all, errand.EndsIn Errand.tended.world := by decide +kernel
  have tended (errand : Errand) := computed errand errand.mem_all
  obtain ⟨-, -, -, -, ends⟩ := Pool.workers_share_tasks_safely
    (fun errand => errand.script_secluded.1) 1 Errand.world untimed (.given 0) Errand.order_nodup
    settled 2 Errand.shifts
  rw [unfinished] at ends
  simp only [Errand.tended, Errand.started] at finished tended ⊢
  obtain ⟨empty, counted, turns, report, w', ran, alike⟩ := ends finished
  refine ⟨finished, empty, counted, tended, turns, report, w', ran, fun errand => ?_⟩
  obtain ⟨outcome, exit, exit', effects⟩ := alike errand.place errand.place_given
  obtain ⟨ended, emitted⟩ := tended errand
  exact ⟨exit'.trans (exit.symm.trans ended), effects.symm.trans emitted⟩

end ResumableTasks
