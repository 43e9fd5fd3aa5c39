import ResumableTasks.Proofs.RoundRobin
/-!
A run of a scheduler that is cut into pieces. Each time the run gives up, and another one is begun
on what is left. All that the pieces do together is what one run does that never gives up, as long
as tasks that are asked answer the same: only the counters, the count of misses and the time of the
last progress are set back where a piece begins. The two runs are compared head by head, dispatch by
dispatch.
-/
namespace ResumableTasks

open Context

variable {ρ ε α : Type}

theorem WaitReason.poll_reason_eq (reason : WaitReason) (latches latches' : List Bool)
    (now now' : Nat) (task : TaskId) :
    (reason.poll latches' now' task).2 = (reason.poll latches now task).2 := by
  rcases reason with _ | _ | (_ | _ | _) <;> rfl

theorem Task.poll_task_eq (t : Task ρ) (latches latches' : List Bool) (now now' : Nat) :
    (t.poll latches' now').2 = (t.poll latches now).2 := by
  unfold poll
  split
  · rfl
  · rfl
  · rfl
  · split
    · rfl
    · split
      · rfl
      · next reason _ => simp only [reason.poll_reason_eq latches latches' now now' t.id]

namespace Dispatch

def answer (d : Dispatch ρ ε) : Bool := (d.taken.isReady d.task).1

def scene (d : Dispatch ρ ε) : Nat × List (Task ρ) := (d.task, d.taken.tasks)

end Dispatch

namespace World

/-- The same is done to the tasks and to the logs of two worlds, and nothing to their schedulers. -/
structure Alongside (w v w' v' : World ρ ε) : Prop where
  tasks : v'.tasks = w'.tasks
  effects : ∃ effects, w'.log = w.log ++ effects ∧ v'.log = v.log ++ effects
  schedulers : ∃ p q, w'.scheduler = { w.scheduler with lastProgress := p } ∧
    v'.scheduler = { v.scheduler with lastProgress := q }

section

variable {w v w' v' : World ρ ε}

theorem Alongside.refl (tasks : v.tasks = w.tasks) : Alongside w v w v where
  tasks := tasks
  effects := ⟨[], (List.append_nil _).symm, (List.append_nil _).symm⟩
  schedulers := ⟨_, _, rfl, rfl⟩

theorem Alongside.trans {w'' v'' : World ρ ε} (first : Alongside w v w' v')
    (later : Alongside w' v' w'' v'') : Alongside w v w'' v'' where
  tasks := later.tasks
  effects := by
    obtain ⟨effects, one, one'⟩ := first.effects
    obtain ⟨more, two, two'⟩ := later.effects
    refine ⟨effects ++ more, ?_, ?_⟩
    · rw [two, one, List.append_assoc]
    · rw [two', one', List.append_assoc]
  schedulers := by
    obtain ⟨_, _, one, one'⟩ := first.schedulers
    obtain ⟨p, q, two, two'⟩ := later.schedulers
    refine ⟨p, q, ?_, ?_⟩
    · rw [two, one]
    · rw [two', one']

theorem isReady_alongside (tasks : v.tasks = w.tasks) (task : Nat) :
    Alongside w v (w.isReady task).2 (v.isReady task).2 where
  tasks := by
    have same (t : Task ρ) : (t.poll v.latches v.readClock.1).2 =
        (t.poll w.latches w.readClock.1).2 := t.poll_task_eq _ _ _ _
    have change : (fun t : Task ρ => (t.poll v.latches v.readClock.1).2) =
        fun t => (t.poll w.latches w.readClock.1).2 := funext same
    show v.tasks.modify task _ = w.tasks.modify task _
    rw [change, tasks]
  effects := ⟨[], (List.append_nil _).symm, (List.append_nil _).symm⟩
  schedulers := ⟨_, _, rfl, rfl⟩

theorem runTask_alongside {execute : Context ρ ε → Ending α × Context ρ ε}
    (confined : Confined Eq execute) (tasks : v.tasks = w.tasks) {task : Nat} {t : Task ρ}
    (found : w.tasks[task]? = some t) :
    (v.runTask execute task).1 = (w.runTask execute task).1 ∧
      Alongside w v (w.runTask execute task).2 (v.runTask execute task).2 := by
  have found' : v.tasks[task]? = some t := tasks ▸ found
  rw [runTask_alone confined found, runTask_alone confined found']
  refine ⟨rfl, ?_, ⟨(t.runAlone execute).2.2.map (Prod.mk task), rfl, rfl⟩, ⟨_, _, rfl, rfl⟩⟩
  show v.tasks.modify task _ = w.tasks.modify task _
  rw [tasks]

theorem isDone_congr (tasks : v.tasks = w.tasks) (task : Nat) : v.isDone task = w.isDone task := by
  simp only [isDone, tasks]

theorem verdict_alongside (tasks : v.tasks = w.tasks) (task : Nat) (answer : RunAnswer) :
    (v.verdict task answer).1 = (w.verdict task answer).1 ∧
      Alongside w v (w.verdict task answer).2 (v.verdict task answer).2 := by
  refine ⟨?_, ?_, ?_, ?_⟩
  · cases answer with
    | suspended | done | misused => rfl
    | failed error =>
      simp only [verdict, isDone_congr tasks]
      split
      · rfl
      · split <;> rfl
  · rw [verdict_tasks, verdict_tasks, tasks]
  · have log (u : World ρ ε) : (u.verdict task answer).2.log = u.log := by
      rcases u.verdict_world task answer with same | same
      · rw [same]
      · rw [same]
        rfl
    exact ⟨[], by rw [log, List.append_nil], by rw [log, List.append_nil]⟩
  · obtain ⟨p, one⟩ := verdict_scheduler task w answer
    obtain ⟨q, two⟩ := verdict_scheduler task v answer
    exact ⟨p, q, one, two⟩

theorem found_of_ready {task : Nat} (ready : (w.isReady task).1 = true) :
    ∃ t, w.tasks[task]? = some t := by
  cases found : w.tasks[task]? with
  | some t => exact ⟨t, rfl⟩
  | none => simp [isReady, found] at ready

theorem ready_found (idle : w.Idle) {task : Nat} (unfinished : w.isDone task = false)
    (ready : (w.isReady task).1 = true) :
    ∃ t, (w.isReady task).2.tasks[task]? = some t ∧ t.Settled ∧ t.isDone = false := by
  obtain ⟨t, found⟩ := found_of_ready ready
  have polled := (isReady_found found).2
  have asked : (w.isReady task).2.Idle := (isReady_becomes idle.sound task).idle idle
  refine ⟨_, polled, asked task _ polled, ?_⟩
  rw [← isDone_of_found polled, isReady_isDone]
  exact unfinished

theorem judge_alongside {execute : Context ρ ε → Ending α × Context ρ ε}
    (confined : Confined Eq execute) (tasks : v.tasks = w.tasks) {task : Nat}
    (answers : (v.isReady task).1 = (w.isReady task).1) :
    (v.judge execute task).1 = (w.judge execute task).1 ∧
      Alongside w v (w.judge execute task).2 (v.judge execute task).2 := by
  simp only [judge, isDone_congr tasks, answers]
  split
  · exact ⟨rfl, .refl tasks⟩
  · have asked := isReady_alongside tasks task
    split
    · next ready =>
      obtain ⟨t, found⟩ := found_of_ready ready
      obtain ⟨answer, ran⟩ := runTask_alongside confined asked.tasks (isReady_found found).2
      rw [answer]
      obtain ⟨verdict, decided⟩ := verdict_alongside ran.tasks task
        ((w.isReady task).2.runTask execute task).1
      exact ⟨verdict, (asked.trans ran).trans decided⟩
    · exact ⟨rfl, asked⟩

theorem judge_retires {execute : Context ρ ε → Ending α × Context ρ ε}
    (confined : Confined Eq execute) (idle : w.Idle) (task : Nat) :
    (w.judge execute task).1.retires = (w.judge execute task).2.isDone task := by
  unfold judge
  split
  · next done => exact done.symm
  · next unfinished =>
    have unfinished : w.isDone task = false := Bool.eq_false_iff.mpr unfinished
    dsimp only
    split
    · next ready =>
      obtain ⟨t, found, settled, open_task⟩ := ready_found idle unfinished ready
      have tells := (Task.runAlone_settles confined settled open_task).2
      have ran := runTask_alone confined found
      have told : ((w.isReady task).2.runTask execute task).1.Tells
          (((w.isReady task).2.runTask execute task).2.isDone task) := by
        rw [ran]
        simpa [World.isDone, emitAll, updateTask, found] using tells
      rw [verdict_retires told]
      simp only [World.isDone, verdict_tasks]
    · exact ((w.isReady_isDone task).trans unfinished).symm

end

/-- A world of the run in pieces and one of the uncut run, since these began in `start` and `uncut`;
the pieces before have retired so many tasks. -/
structure Abreast (start uncut : World ρ ε) (completed failed : Nat) (w v : World ρ ε) : Prop where
  tasks : v.tasks = w.tasks
  queue : v.scheduler.queue = w.scheduler.queue
  live : v.scheduler.live = w.scheduler.live
  effects : ∃ effects, w.log = start.log ++ effects ∧ v.log = uncut.log ++ effects
  completed : v.scheduler.completed = completed + w.scheduler.completed
  failed : v.scheduler.failed = failed + w.scheduler.failed
  unlimited : v.scheduler.settings.idleTimeout = none

namespace Abreast

variable {start uncut w v w' v' : World ρ ε} {completed failed : Nat}

theorem congr (abreast : Abreast start uncut completed failed w v) (tasks : w'.tasks = w.tasks)
    (log : w'.log = w.log) {p : Nat}
    (scheduler : w'.scheduler = { w.scheduler with lastProgress := p }) :
    Abreast start uncut completed failed w' v where
  tasks := abreast.tasks.trans tasks.symm
  queue := by
    rw [scheduler]
    exact abreast.queue
  live := by
    rw [scheduler]
    exact abreast.live
  effects := log ▸ abreast.effects
  completed := by
    rw [scheduler]
    exact abreast.completed
  failed := by
    rw [scheduler]
    exact abreast.failed
  unlimited := abreast.unlimited

theorem sleep_left (abreast : Abreast start uncut completed failed w v) :
    Abreast start uncut completed failed w.sleep v :=
  abreast.congr rfl rfl rfl

theorem sleep_right (abreast : Abreast start uncut completed failed w v) :
    Abreast start uncut completed failed w v.sleep :=
  ⟨abreast.tasks, abreast.queue, abreast.live, abreast.effects, abreast.completed, abreast.failed,
    abreast.unlimited⟩

theorem alongside (abreast : Abreast start uncut completed failed w v)
    (alongside : Alongside w v w' v') : Abreast start uncut completed failed w' v' := by
  obtain ⟨effects, one, one'⟩ := abreast.effects
  obtain ⟨more, two, two'⟩ := alongside.effects
  obtain ⟨p, q, scheduler, scheduler'⟩ := alongside.schedulers
  refine ⟨alongside.tasks, ?_, ?_, ⟨effects ++ more, ?_, ?_⟩, ?_, ?_, ?_⟩
  · rw [scheduler, scheduler']
    exact abreast.queue
  · rw [scheduler, scheduler']
    exact abreast.live
  · rw [two, one, List.append_assoc]
  · rw [two', one', List.append_assoc]
  · rw [scheduler, scheduler']
    exact abreast.completed
  · rw [scheduler, scheduler']
    exact abreast.failed
  · rw [scheduler']
    exact abreast.unlimited

theorem settle (abreast : Abreast start uncut completed failed w v) (task : Nat)
    (verdict : Verdict) :
    Abreast start uncut completed failed (w.settle task verdict).2 (v.settle task verdict).2 := by
  have live : v.scheduler.live - 1 = w.scheduler.live - 1 := congrArg (· - 1) abreast.live
  rcases verdict with moved | (_ | _)
  · exact ⟨abreast.tasks, congrArg (RunQueue.push · task) abreast.queue, abreast.live,
      abreast.effects, abreast.completed, abreast.failed, abreast.unlimited⟩
  · exact ⟨abreast.tasks, abreast.queue, live, abreast.effects,
      congrArg (· + 1) abreast.completed, abreast.failed, abreast.unlimited⟩
  · exact ⟨abreast.tasks, abreast.queue, live, abreast.effects, abreast.completed,
      congrArg (· + 1) abreast.failed, abreast.unlimited⟩

theorem dispatch {execute : Context ρ ε → Ending α × Context ρ ε}
    (confined : Confined Eq execute) (abreast : Abreast start uncut completed failed w v)
    {task : Nat} (answers : (v.isReady task).1 = (w.isReady task).1) :
    Abreast start uncut completed failed (w.dispatch execute task).2
      (v.dispatch execute task).2 := by
  obtain ⟨verdict, alongside⟩ := judge_alongside confined abreast.tasks answers
  rw [dispatch_eq, dispatch_eq, verdict]
  exact (abreast.alongside alongside).settle task _

theorem take (abreast : Abreast start uncut completed failed w v) {task : Nat}
    {taken : World ρ ε} (took : w.take? = some (task, taken)) :
    ∃ taken', v.take? = some (task, taken') ∧
      Abreast start uncut completed failed taken taken' := by
  obtain ⟨rest, queued, rfl⟩ := take?_eq_some_iff.mp took
  have queued' : v.scheduler.queue.entries = task :: rest := by rw [abreast.queue, queued]
  refine ⟨_, take?_eq_some_iff.mpr ⟨rest, queued', rfl⟩, ?_⟩
  exact ⟨abreast.tasks, rfl, abreast.live, abreast.effects, abreast.completed, abreast.failed,
    abreast.unlimited⟩

end Abreast

section

variable {execute : Context ρ ε → Ending α × Context ρ ε} {misses later task : Nat}
  {w v taken : World ρ ε}

theorem dispatches_of_take (took : w.timedOut.2.take? = some (task, taken)) :
    w.dispatches = [⟨task, taken⟩] := by
  simp [dispatches, took]

theorem Turned.outcome (turned : w.Turned execute misses later v)
    (took : w.timedOut.2.take? = some (task, taken)) :
    v = (taken.dispatch execute task).2 ∨ v = (taken.dispatch execute task).2.sleep := by
  cases turned with
  | starved empty =>
    rw [took] at empty
    cases empty
  | moved took' | missed took' =>
    rw [took] at took'
    cases took'
    exact .inl rfl
  | swept took' =>
    rw [took] at took'
    cases took'
    exact .inr rfl

theorem timedOut_log (w : World ρ ε) : w.timedOut.2.log = w.log := by
  unfold timedOut
  split <;> rfl

theorem stopped_cases {w' : World ρ ε} (stops : w.turn execute misses = .stopped w') :
    (w.scheduler.live = 0 ∧ w' = w) ∨ (w.timedOut.1 = true ∧ w' = w.timedOut.2) := by
  rcases turn_cases execute misses w with ⟨ended, turns⟩ | ⟨late, turns⟩ | ⟨_, _, _, _, turns, _⟩
  · rw [turns] at stops
    cases stops
    exact .inl ⟨ended, rfl⟩
  · rw [turns] at stops
    cases stops
    exact .inr ⟨late, rfl⟩
  · rw [turns] at stops
    cases stops

end

/-- As far as the uncut run goes along with these dispatches, its tasks answer as they do there. -/
def AnswersAs (execute : Context ρ ε → Ending α × Context ρ ε) (uncut : World ρ ε)
    (log : List (Dispatch ρ ε)) : Prop :=
  ∀ misses log' v, Served execute uncut misses log' v → log'.length ≤ log.length →
    log'.map Dispatch.answer <+: log.map Dispatch.answer

/-- After the same dispatches the uncut run comes to a head that is abreast of this world. -/
def Matched (execute : Context ρ ε → Ending α × Context ρ ε) (start uncut : World ρ ε)
    (log : List (Dispatch ρ ε)) (completed failed : Nat) (w : World ρ ε) : Prop :=
  ∃ misses log' v, Served execute uncut misses log' v ∧
    log'.map Dispatch.scene = log.map Dispatch.scene ∧
    Abreast start uncut completed failed w v

theorem last_eq_of_prefix {β : Type} {xs ys full : List β} {x y : β} (one : xs ++ [x] <+: full)
    (other : ys ++ [y] <+: full) (same : xs.length = ys.length) : x = y := by
  have within : xs ++ [x] <+: ys ++ [y] := by
    apply List.prefix_of_prefix_length_le one other
    simp [same]
  have whole := within.eq_of_length (by simp [same])
  exact List.head_eq_of_cons_eq (List.append_inj' whole rfl).2

namespace Matched

variable {execute : Context ρ ε → Ending α × Context ρ ε} {start uncut w : World ρ ε}
  {log full : List (Dispatch ρ ε)} {completed failed : Nat}

theorem congr (matched : Matched execute start uncut log completed failed w) {w' : World ρ ε}
    (tasks : w'.tasks = w.tasks) (effects : w'.log = w.log) {p : Nat}
    (scheduler : w'.scheduler = { w.scheduler with lastProgress := p }) :
    Matched execute start uncut log completed failed w' := by
  obtain ⟨misses, log', v, served, scenes, abreast⟩ := matched
  exact ⟨misses, log', v, served, scenes, abreast.congr tasks effects scheduler⟩

theorem stop (matched : Matched execute start uncut log completed failed w) {misses : Nat}
    {w' : World ρ ε} (stops : w.turn execute misses = .stopped w') :
    Matched execute start uncut log completed failed w' := by
  rcases stopped_cases stops with ⟨-, rfl⟩ | ⟨-, rfl⟩
  · exact matched
  · exact matched.congr w.timedOut_tasks w.timedOut_log w.timedOut_scheduler

theorem next (confined : Confined Eq execute)
    (matched : Matched execute start uncut log completed failed w)
    (balanced : w.scheduler.Balanced) {misses later : Nat} {w' : World ρ ε}
    (goes : w.turn execute misses = .next later w') (part : log ++ w.dispatches <+: full)
    (answers : AnswersAs execute uncut full) :
    Matched execute start uncut (log ++ w.dispatches) completed failed w' := by
  obtain ⟨live, -, turned⟩ := turned_of_next goes
  obtain ⟨misses', log', v, served, scenes, abreast⟩ := matched
  have checked : Abreast start uncut completed failed w.timedOut.2 v :=
    abreast.congr w.timedOut_tasks w.timedOut_log w.timedOut_scheduler
  rw [← w.timedOut_scheduler] at balanced live
  obtain ⟨task, taken, took⟩ := take?_of_live balanced live
  obtain ⟨taken', took', abreast'⟩ := checked.take took
  have untimed := timedOut_unlimited abreast.unlimited
  -- The uncut run has as much left and is never late, so it takes an entry too, and the same one.
  rcases turn_cases execute misses' v with
    ⟨idle, _⟩ | ⟨late, _⟩ | ⟨_, _, later', v', goes', turned'⟩
  · rw [abreast.live, ← w.timedOut_scheduler] at idle
    exact absurd idle live
  · rw [untimed] at late
    cases late
  · have took'' : v.timedOut.2.take? = some (task, taken') := by
      rw [untimed]
      exact took'
    have served' := served.next goes'
    rw [dispatches_of_take took''] at served'
    rw [dispatches_of_take took] at part ⊢
    have length : log'.length = log.length := by simpa using congrArg List.length scenes
    have within := answers _ _ _ served' (by
      have bounded := part.length_le
      simp only [List.length_append, List.length_singleton] at bounded ⊢
      omega)
    have answer : (taken'.isReady task).1 = (taken.isReady task).1 := by
      have own := part.map Dispatch.answer
      rw [List.map_append] at within own
      exact last_eq_of_prefix within own (by simp [length])
    have dispatched := abreast'.dispatch confined answer
    refine ⟨later', _, v', served', ?_, ?_⟩
    · rw [List.map_append, List.map_append, scenes]
      simp [Dispatch.scene, abreast'.tasks]
    · rcases turned.outcome took with rfl | rfl
      · rcases turned'.outcome took'' with rfl | rfl
        · exact dispatched
        · exact dispatched.sleep_right
      · rcases turned'.outcome took'' with rfl | rfl
        · exact dispatched.sleep_left
        · exact dispatched.sleep_left.sleep_right

theorem begin (matched : Matched execute start uncut log completed failed w) :
    Matched execute start uncut log (completed + w.scheduler.completed)
      (failed + w.scheduler.failed) w.beginRun := by
  -- The counters start anew, and what they showed is counted for the pieces before.
  obtain ⟨misses, log', v, served, scenes, abreast⟩ := matched
  exact ⟨misses, log', v, served, scenes, abreast.tasks, abreast.queue, abreast.live,
    abreast.effects, abreast.completed, abreast.failed, abreast.unlimited⟩

end Matched

theorem Served.head {enter : ρ → Script ρ ε} {depth misses : Nat} {start v : World ρ ε}
    {log : List (Dispatch ρ ε)}
    (served : Served (Script.execute enter depth) start misses log v) :
    ∃ spawned, Head enter depth start misses spawned v := by
  induction served with
  | begun => exact ⟨_, .first⟩
  | next _ goes ih =>
    obtain ⟨spawned, head⟩ := ih
    exact ⟨_, head.next goes⟩

def loopLog (execute : Context ρ ε → Ending α × Context ρ ε) :
    Nat → Nat → World ρ ε → List (Dispatch ρ ε)
  | 0, _, _ => []
  | turns + 1, misses, w =>
    match w.turn execute misses with
    | .stopped _ => []
    | .next later v => w.dispatches ++ loopLog execute turns later v

theorem Served.finishes {execute : Context ρ ε → Ending α × Context ρ ε} {turns misses : Nat}
    {start v w' : World ρ ε} {log : List (Dispatch ρ ε)}
    (served : Served execute start misses log v)
    (finished : runTurns execute turns misses v = some w') :
    ∃ later last, Served execute start later (log ++ loopLog execute turns misses v) last ∧
      last.turn execute later = .stopped w' := by
  induction turns generalizing misses log v with
  | zero => cases finished
  | succ turns ih =>
    rw [runTurns] at finished
    rw [loopLog]
    cases goes : v.turn execute misses with
    | stopped stopped =>
      rw [goes] at finished
      cases finished
      refine ⟨misses, v, ?_, goes⟩
      rw [List.append_nil]
      exact served
    | next later next =>
      rw [goes] at finished
      dsimp only
      rw [← List.append_assoc]
      exact ih (served.next goes) finished

theorem runCurrentThread_served {execute : Context ρ ε → Ending α × Context ρ ε} {turns : Nat}
    {start w' : World ρ ε} {report : SchedulerReport}
    (finished : start.runCurrentThread execute turns = some (report, w')) :
    report = w'.scheduler.report ∧ ∃ misses last,
      Served execute start misses (loopLog execute turns 0 start.beginRun) last ∧
      last.turn execute misses = .stopped w' := by
  obtain ⟨stopped, ended, same⟩ := Option.map_eq_some_iff.mp finished
  cases same
  exact ⟨rfl, Served.begun.finishes ended⟩

theorem Served.runTurns_eq {execute : Context ρ ε → Ending α × Context ρ ε} {misses : Nat}
    {start v : World ρ ε} {log : List (Dispatch ρ ε)} (served : Served execute start misses log v) :
    ∃ turns, ∀ left, runTurns execute (turns + left) 0 start.beginRun =
      runTurns execute left misses v := by
  induction served with
  | begun => exact ⟨0, fun left => by rw [Nat.zero_add]⟩
  | next _ goes ih =>
    obtain ⟨turns, reached⟩ := ih
    refine ⟨turns + 1, fun left => ?_⟩
    rw [Nat.add_right_comm, Nat.add_assoc, reached, runTurns, goes]

/-- Runs on one thread, each after the other has given up or has come to its end, and what may
happen between them: a latch is released, or time passes. The log has the dispatches of all runs,
and the numbers are the totals of their reports. -/
inductive Pieces (execute : Context ρ ε → Ending α × Context ρ ε) (start : World ρ ε) :
    List (Dispatch ρ ε) → Nat → Nat → World ρ ε → Prop
  | unrun : Pieces execute start [] 0 0 start
  | released {log : List (Dispatch ρ ε)} {completed failed : Nat} {w : World ρ ε}
      (pieces : Pieces execute start log completed failed w) (latch : Nat) :
      Pieces execute start log completed failed (w.release latch)
  | waited {log : List (Dispatch ρ ε)} {completed failed : Nat} {w : World ρ ε}
      (pieces : Pieces execute start log completed failed w) (span : Nat) :
      Pieces execute start log completed failed { w with clock := w.clock.sleep span }
  | run {log : List (Dispatch ρ ε)} {completed failed turns : Nat} {w w' : World ρ ε}
      {report : SchedulerReport} (pieces : Pieces execute start log completed failed w)
      (finished : w.runCurrentThread execute turns = some (report, w')) :
      Pieces execute start (log ++ loopLog execute turns 0 w.beginRun)
        (completed + report.completed) (failed + report.failed) w'

section

variable {enter : ρ → Script ρ ε} {depth : Nat} {start uncut w : World ρ ε}
  {log full : List (Dispatch ρ ε)} {completed failed : Nat}

theorem Pieces.settles (idle : start.Idle) (balanced : start.scheduler.Balanced)
    (pieces : Pieces (Script.execute enter depth) start log completed failed w) :
    w.Idle ∧ w.scheduler.Balanced := by
  induction pieces with
  | unrun => exact ⟨idle, balanced⟩
  | released _ latch ih => exact serve_settles ih.1 ih.2 (.release latch) rfl
  | waited _ span ih => exact ih
  | @run _ _ _ turns v w' _ _ finished ih =>
    have served : v.serve (.drive enter depth turns) = some w' := by
      simp only [serve, finished, Option.map_some]
    exact serve_settles ih.1 ih.2 _ served

theorem Matched.served (confined : Confined Eq (Script.execute enter depth)) (idle : w.Idle)
    (balanced : w.scheduler.Balanced)
    (answers : AnswersAs (Script.execute enter depth) uncut full)
    (matched : Matched (Script.execute enter depth) start uncut log completed failed w.beginRun)
    {misses : Nat} {more : List (Dispatch ρ ε)} {v : World ρ ε}
    (served : Served (Script.execute enter depth) w misses more v) (part : log ++ more <+: full) :
    Matched (Script.execute enter depth) start uncut (log ++ more) completed failed v := by
  induction served with
  | begun =>
    rw [List.append_nil]
    exact matched
  | next served goes ih =>
    obtain ⟨spawned, head⟩ := served.head
    rw [← List.append_assoc] at part ⊢
    have earlier := ih ((List.prefix_append _ _).trans part)
    exact earlier.next confined (Accounted.head idle balanced head).balanced goes part answers

theorem Pieces.matched (confined : Confined Eq (Script.execute enter depth)) (idle : start.Idle)
    (balanced : start.scheduler.Balanced)
    (answers : AnswersAs (Script.execute enter depth) uncut full)
    (began : Matched (Script.execute enter depth) start uncut [] 0 0 start.beginRun)
    (pieces : Pieces (Script.execute enter depth) start log completed failed w)
    (part : log <+: full) :
    Matched (Script.execute enter depth) start uncut log completed failed w.beginRun := by
  induction pieces with
  | unrun => exact began
  | released pieces latch ih => exact (ih part).congr rfl rfl rfl
  | waited pieces span ih => exact (ih part).congr rfl rfl rfl
  | run pieces finished ih =>
    obtain ⟨rfl, later, last, served, stops⟩ := runCurrentThread_served finished
    obtain ⟨idle', balanced'⟩ := pieces.settles idle balanced
    have earlier := ih ((List.prefix_append _ _).trans part)
    have reached := earlier.served confined idle' balanced' answers served part
    exact (reached.stop stops).begin

theorem Becomes.not_done {w' : World ρ ε} (becomes : w.Becomes w') {i : Nat}
    (waits : w'.isDone i = false) : w.isDone i = false := by
  cases found : w.tasks[i]? with
  | none => simp [isDone, found]
  | some t =>
    obtain ⟨t', found', step⟩ := becomes.at_task found
    rw [isDone_of_found found'] at waits
    rw [isDone_of_found found]
    cases done : t.isDone with
    | false => rfl
    | true =>
      rw [step.done (by simpa [Task.isDone_eq] using done), done] at waits
      cases waits

/-- Whatever is not done is queued as often as it was in the beginning. -/
def KeepsQueued (start w : World ρ ε) : Prop :=
  ∀ i, w.isDone i = false →
    w.scheduler.queue.entries.count i = start.scheduler.queue.entries.count i

theorem KeepsQueued.congr {w' : World ρ ε} (kept : KeepsQueued start w)
    (tasks : w'.tasks = w.tasks) (queue : w'.scheduler.queue = w.scheduler.queue) :
    KeepsQueued start w' := by
  intro i waits
  rw [queue]
  exact kept i (by rwa [isDone_congr tasks] at waits)

theorem KeepsQueued.dispatch (confined : Confined Eq (Script.execute enter depth)) (idle : w.Idle)
    (kept : KeepsQueued start w) {task : Nat} {taken : World ρ ε}
    (took : w.take? = some (task, taken)) :
    KeepsQueued start (taken.dispatch (Script.execute enter depth) task).2 := by
  obtain ⟨rest, queued, rfl⟩ := take?_eq_some_iff.mp took
  generalize same : w.updateScheduler ({ · with queue := ⟨rest⟩ }) = taken
  have idle' : taken.Idle := same ▸ idle
  have rest_left : taken.scheduler.queue.entries = rest := same ▸ rfl
  have retires := judge_retires confined idle' task
  have untouched : (taken.judge (Script.execute enter depth) task).2.scheduler.queue.entries =
      rest := by
    obtain ⟨_, _, scheduler, -⟩ := (judge_alongside confined (rfl : taken.tasks = taken.tasks)
      (rfl : (taken.isReady task).1 = (taken.isReady task).1)).2.schedulers
    rw [scheduler]
    exact rest_left
  have becomes := dispatch_becomes (Script.execute_respects enter depth) idle'.sound task
  intro i waits
  have before : w.isDone i = false := by
    have waited := becomes.not_done waits
    rw [← same] at waited
    exact waited
  rw [← kept i before, queued]
  rw [dispatch_eq, settle_isDone] at waits
  rw [dispatch_eq, settle_queue, untouched, retires]
  -- A task leaves the queue only if it is done.
  cases done : (taken.judge (Script.execute enter depth) task).2.isDone task with
  | false =>
    exact (List.perm_append_singleton task rest).count_eq i
  | true =>
    have elsewhere : task ≠ i := by
      rintro rfl
      rw [done] at waits
      cases waits
    exact (List.count_cons_of_ne elsewhere).symm

theorem KeepsQueued.served (confined : Confined Eq (Script.execute enter depth)) (idle : w.Idle)
    (balanced : w.scheduler.Balanced) (kept : KeepsQueued start w) {misses : Nat}
    {more : List (Dispatch ρ ε)} {v : World ρ ε}
    (served : Served (Script.execute enter depth) w misses more v) : KeepsQueued start v := by
  induction served with
  | begun => exact kept.congr rfl rfl
  | @next _ _ _ v v' served goes ih =>
    obtain ⟨spawned, head⟩ := served.head
    have accounted := Accounted.head idle balanced head
    obtain ⟨live, -, turned⟩ := turned_of_next goes
    have checked : KeepsQueued start v.timedOut.2 :=
      ih.congr v.timedOut_tasks (by rw [timedOut_scheduler])
    have idle' : v.timedOut.2.Idle :=
      (Becomes.of_tasks_eq accounted.idle.sound v.timedOut_tasks).idle accounted.idle
    have balanced' := accounted.balanced
    rw [← v.timedOut_scheduler] at balanced' live
    obtain ⟨task, taken, took⟩ := take?_of_live balanced' live
    have dispatched := checked.dispatch confined idle' took
    rcases turned.outcome took with rfl | rfl
    · exact dispatched
    · exact dispatched.congr rfl rfl

theorem Pieces.keepsQueued (confined : Confined Eq (Script.execute enter depth))
    (idle : start.Idle) (balanced : start.scheduler.Balanced)
    (pieces : Pieces (Script.execute enter depth) start log completed failed w) :
    KeepsQueued start w := by
  induction pieces with
  | unrun => exact fun _ _ => rfl
  | released pieces latch ih => exact ih.congr rfl rfl
  | waited pieces span ih => exact ih.congr rfl rfl
  | run pieces finished ih =>
    obtain ⟨-, later, last, served, stops⟩ := runCurrentThread_served finished
    obtain ⟨idle', balanced'⟩ := pieces.settles idle balanced
    have reached := ih.served confined idle' balanced' served
    rcases stopped_cases stops with ⟨-, rfl⟩ | ⟨-, rfl⟩
    · exact reached
    · exact reached.congr last.timedOut_tasks (by rw [timedOut_scheduler])

theorem Served.ends {execute : Context ρ ε → Ending α × Context ρ ε} {misses : Nat}
    {v : World ρ ε} (served : Served execute start misses log v) (idle : v.scheduler.live = 0) :
    ∃ turns, start.runCurrentThread execute turns = some (v.scheduler.report, v) := by
  obtain ⟨turns, reached⟩ := served.runTurns_eq
  refine ⟨turns + 1, ?_⟩
  have stops : v.turn execute misses = .stopped v := by
    unfold turn
    rw [if_pos idle]
  rw [runCurrentThread, reached, runTurns, stops]
  rfl

end

/-- Stopping and restarting changes nothing. However a scheduler's work on tasks with independent
routines is cut into runs, a run that never gives up comes, after as many dispatches, to a head with
the same tasks, outcomes included, the same queue and the same live tasks, if tasks that are asked
answer as they did in the pieces. The dispatches were those of the pieces, one after the other, and
so were the effects; the totals of the pieces are its counts. After each piece whatever is not done
is queued as often as it was in the beginning. -/
theorem cut_runs_are_one_run (w : World ρ ε) (settings : Settings) (choice : ClassifierChoice)
    (calls : List (SchedulerCall ρ ε)) {start : World ρ ε}
    (served : ({ w with tasks := [] }.openScheduler settings choice).serveAll calls = some start)
    {enter : ρ → Script ρ ε} (independent : ∀ object, (enter object).Independent) (depth : Nat)
    {log : List (Dispatch ρ ε)} {completed failed : Nat} {left : World ρ ε}
    (pieces : Pieces (Script.execute enter depth) start log completed failed left)
    {uncut : World ρ ε} (tasks : uncut.tasks = start.tasks)
    (queue : uncut.scheduler.queue = start.scheduler.queue)
    (live : uncut.scheduler.live = start.scheduler.live)
    (unlimited : uncut.scheduler.settings.idleTimeout = none)
    (answers : AnswersAs (Script.execute enter depth) uncut log) :
    (∃ misses log' v, Served (Script.execute enter depth) uncut misses log' v ∧
      log'.map Dispatch.scene = log.map Dispatch.scene ∧
      v.tasks = left.tasks ∧ v.scheduler.queue = left.scheduler.queue ∧
      v.scheduler.live = left.scheduler.live ∧
      (∃ effects, left.log = start.log ++ effects ∧ v.log = uncut.log ++ effects) ∧
      v.scheduler.completed = completed ∧ v.scheduler.failed = failed ∧
      (left.scheduler.live = 0 → ∃ turns,
        uncut.runCurrentThread (Script.execute enter depth) turns =
          some (⟨completed, failed, 0⟩, v))) ∧
    ∀ i, left.isDone i = false →
      left.scheduler.queue.entries.count i = start.scheduler.queue.entries.count i := by
  have confined := Script.execute_confined WaitReason.likeness_eq independent
    (fun object => (enter object).indifferent_eq) depth
  have opened : ({ w with tasks := [] }.openScheduler settings choice).Idle := idle_of_empty w
  obtain ⟨idle, balanced⟩ := serveAll_settles opened rfl calls served
  refine ⟨?_, pieces.keepsQueued confined idle balanced⟩
  have began : Matched (Script.execute enter depth) start uncut [] 0 0 start.beginRun :=
    ⟨0, [], uncut.beginRun, .begun, rfl, tasks, queue, live,
      ⟨[], (List.append_nil _).symm, (List.append_nil _).symm⟩, rfl, rfl, unlimited⟩
  obtain ⟨misses, log', v, reached, scenes, abreast⟩ :=
    pieces.matched confined idle balanced answers began (List.prefix_refl log)
  have all_completed : v.scheduler.completed = completed := abreast.completed
  have all_failed : v.scheduler.failed = failed := abreast.failed
  refine ⟨misses, log', v, reached, scenes, abreast.tasks, abreast.queue, abreast.live,
    abreast.effects, all_completed, all_failed, ?_⟩
  intro finished
  have nothing : v.scheduler.live = 0 := abreast.live.trans finished
  obtain ⟨turns, ends⟩ := reached.ends nothing
  refine ⟨turns, ?_⟩
  rw [ends, Scheduler.report, all_completed, all_failed, nothing]

theorem headAfter_none {execute : Context ρ ε → Ending α × Context ρ ε} {start : World ρ ε}
    {turns : Nat} (ended : headAfter execute start turns = none) {later : Nat}
    (behind : turns ≤ later) : headAfter execute start later = none := by
  induction behind with
  | refl => exact ended
  | step _ ih => rw [headAfter, ih, Option.bind_none]

end World

namespace Errand

def hasty : World Errand Nat :=
  ((({ scheduler := default } : World Errand Nat).openScheduler
    { workerThreads := 1, idleTimeout := some 1 } (.given 0)).addTask .waits 0).spawn 0

def unhurried : World Errand Nat :=
  hasty.updateScheduler fun s => { s with settings := { s.settings with idleTimeout := none } }

end Errand

theorem Errand.unhurried_answers (turns : Nat) {misses : Nat} {log : List (Dispatch Errand Nat)}
    {v : World Errand Nat}
    (reached : World.headAfter (Script.execute Errand.script 1) unhurried turns =
      some (misses, log, v)) :
    log.map Dispatch.answer <+: [true, false, false, true] := by
  have few : ∀ turns ≤ 4, ((World.headAfter (Script.execute Errand.script 1) unhurried turns).all
      fun head => (head.2.1.map Dispatch.answer).isPrefixOf [true, false, false, true]) = true := by
    decide +kernel
  have ended : (World.headAfter (Script.execute Errand.script 1) unhurried 5).isNone = true := by
    decide +kernel
  by_cases within : turns ≤ 4
  · have answered := few turns within
    rw [reached] at answered
    exact List.isPrefixOf_iff_prefix.mp answered
  · have none_left := World.headAfter_none (Option.isNone_iff_eq_none.mp ended)
      (by omega : 5 ≤ turns)
    rw [none_left] at reached
    cases reached

theorem hasty_errand_is_restarted :
    let execute := Script.execute Errand.script 1
    ∃ log left, World.Pieces execute Errand.hasty log 1 0 left ∧
      log.map Dispatch.task = [0, 0, 0, 0] ∧ left.scheduler.queue.entries = [] ∧
      ∃ turns v, Errand.unhurried.runCurrentThread execute turns = some (⟨1, 0, 0⟩, v) ∧
        v.tasks = left.tasks := by
  intro execute
  have evaluated : (Errand.hasty.runCurrentThread execute 4).bind (fun first =>
      (first.2.runCurrentThread execute 2).map fun second =>
        let log := World.loopLog execute 4 0 Errand.hasty.beginRun ++
          World.loopLog execute 2 0 first.2.beginRun
        (first.1, second.1, second.2.scheduler.queue.entries,
          log.map fun d => (d.task, d.answer))) =
      some (⟨0, 0, 1⟩, ⟨1, 0, 0⟩, [], [(0, true), (0, false), (0, false), (0, true)]) := by
    decide +kernel
  obtain ⟨⟨report, cut⟩, first, shown⟩ := Option.bind_eq_some_iff.mp evaluated
  obtain ⟨⟨report', left⟩, second, shown⟩ := Option.map_eq_some_iff.mp shown
  simp only [Prod.mk.injEq] at shown
  obtain ⟨rfl, rfl, queue, seen⟩ := shown
  have tasks := congrArg (List.map Prod.fst) seen
  have answers := congrArg (List.map Prod.snd) seen
  rw [List.map_map] at tasks answers
  have live : left.scheduler.live = 0 := by
    obtain ⟨_, -, same⟩ := Option.map_eq_some_iff.mp second
    obtain ⟨reported, rfl⟩ := Prod.mk.inj same
    exact congrArg SchedulerReport.pending reported
  have pieces := (World.Pieces.unrun.run first).run second
  have served : (({ tasks := [], scheduler := default } : World Errand Nat).openScheduler
      { workerThreads := 1, idleTimeout := some 1 } (.given 0)).serveAll
        [.onTask (.create .waits 0), .spawn 0] = some Errand.hasty := rfl
  have same_answers : World.AnswersAs execute Errand.unhurried
      ([] ++ World.loopLog execute 4 0 Errand.hasty.beginRun ++
        World.loopLog execute 2 0 cut.beginRun) := by
    intro misses log v head _
    obtain ⟨turns, reached⟩ := World.served_iff.mp head
    rw [List.nil_append, show List.map Dispatch.answer _ = _ from answers]
    exact Errand.unhurried_answers turns reached
  obtain ⟨⟨misses, log, v, -, -, same_tasks, -, -, -, -, -, ends⟩, -⟩ :=
    World.cut_runs_are_one_run { scheduler := default }
      { workerThreads := 1, idleTimeout := some 1 } (.given 0)
      [.onTask (.create .waits 0), .spawn 0] served
      (fun errand => errand.script_secluded.1) 1 pieces (rfl : Errand.unhurried.tasks = _) rfl rfl
      rfl same_answers
  obtain ⟨turns, finished⟩ := ends live
  exact ⟨_, left, pieces, tasks, queue, turns, v, finished, same_tasks⟩

end ResumableTasks
