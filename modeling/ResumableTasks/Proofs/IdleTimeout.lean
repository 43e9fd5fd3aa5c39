import ResumableTasks.Proofs.NotedHistory
import ResumableTasks.Proofs.RestartedRun
import ResumableTasks.Settings.Environment
/-!
When a scheduler gives up. The loop stops with tasks left only when the idle timeout has passed
since the last progress that it recorded. What it records is the clock after each task that it ran;
an entry of a task that was done already is dropped without a record, but right after a look at the
clock that was still in time. So under any timeout but zero the loop stops with tasks left only
after time has passed.
-/
namespace ResumableTasks

open Context

variable {ρ ε α : Type}

def Dispatch.Progresses (d : Dispatch ρ ε) : Prop :=
  d.taken.isDone d.task = true ∨ d.answer = true

theorem Task.Settled.at_rest {t : Task ρ} (settled : t.Settled) (open_task : t.isDone = false) :
    t.state = .new ∨ t.state = .suspended := by
  cases state : t.state with
  | new => exact .inl rfl
  | suspended => exact .inr rfl
  | running => exact absurd state settled.not_running
  | done => simp [isDone_eq, state] at open_task

namespace World

section

variable {enter : ρ → Script ρ ε} {depth : Nat} {w : World ρ ε}

theorem clock_upheld (past : Nat) :
    ({} : Notary ρ ε Unit).Upholds fun _ w => past ≤ w.clock.now where
  still passed _ later := Nat.le_trans passed later
  created _ _ passed := passed
  asked _ passed := Nat.le_trans passed (Nat.le_add_right ..)
  cancelled _ _ passed := passed
  watched _ work := work.holds
  started := by
    intro _ w task cx passed entered
    rw [entry_world entered]
    exact passed
  refused := by
    intro _ w task _ passed unentered execute
    cases found : w.tasks[task]? with
    | none => simpa [runTask, found] using passed
    | some t =>
      simp only [entry, found, Option.bind_some] at unentered
      simp only [runTask, found]
      split
      · exact passed
      · exact passed
      · exact passed
      · next admission => simp [admission] at unentered
  settled _ _ passed _ := passed

theorem dispatch_clock (enter : ρ → Script ρ ε) (depth : Nat) (sound : w.Sound) (task : Nat) :
    w.clock.now ≤ (w.dispatch (Script.execute enter depth) task).2.clock.now := by
  apply dispatch_carries (clock_upheld w.clock.now) sound
  · exact Nat.le_refl _
  · exact []

theorem settle_lastProgress (task : Nat) (w : World ρ ε) (verdict : Verdict) :
    (w.settle task verdict).2.scheduler.lastProgress = w.scheduler.lastProgress := by
  rcases verdict with moved | (_ | _) <;> rfl

theorem verdict_of_records {task : Nat} {t : Task ρ} {answer : RunAnswer}
    (found : w.tasks[task]? = some t) (records : t.Records answer)
    (fatal : ∀ error, answer = .failed error → error.isFatal = true) :
    w.verdict task answer =
      (if w.isDone task then .retired answer.surfacesFatal else .putBack true, w.progress) := by
  rw [isDone_of_found found]
  cases answer with
  | suspended =>
    have state : t.state = .suspended := records
    simp [verdict, Task.isDone_eq, state]
  | done => simp [verdict, Task.isDone_eq, records.1, RunAnswer.surfacesFatal]
  | misused => exact records.elim
  | failed error =>
    have fatal := fatal error rfl
    have done : t.isDone = true := by simp [Task.isDone_eq, records.1]
    have other : error.kind ≠ .taskDone := by
      intro same
      simp [Error.isFatal, same, ErrorKind.category] at fatal
    simp [verdict, isDone_of_found found, other, done, RunAnswer.surfacesFatal, fatal]

theorem verdict_records (enter : ρ → Script ρ ε) (depth : Nat) (sound : w.Sound) {task : Nat}
    {t : Task ρ} (found : w.tasks[task]? = some t) (idle : t.state = .new ∨ t.state = .suspended) :
    let ran := w.runTask (Script.execute enter depth) task
    (ran.2.verdict task ran.1).2 = ran.2.progress := by
  obtain ⟨⟨t', later, records⟩, fatal⟩ := runTask_records enter depth sound found idle
  exact congrArg Prod.snd (verdict_of_records later records fatal)

theorem dispatch_cases (enter : ρ → Script ρ ε) (depth : Nat) (idle : w.Idle) (task : Nat) :
    let after := (w.dispatch (Script.execute enter depth) task).2
    (w.isDone task = true ∧ after = w.updateScheduler (·.retire false)) ∨
    (w.isDone task = false ∧ (w.isReady task).1 = true ∧
      after.scheduler.lastProgress = after.clock.now) ∨
    (w.isDone task = false ∧ (w.isReady task).1 = false ∧
      after = (w.isReady task).2.updateScheduler (·.enqueue task)) := by
  unfold dispatch
  split
  · next done => exact .inl ⟨done, rfl⟩
  · next unfinished =>
    have unfinished := Bool.eq_false_iff.mpr unfinished
    dsimp only
    split
    · next ready =>
      obtain ⟨t, found, settled, open_task⟩ := ready_found idle unfinished ready
      have asked : (w.isReady task).2.Sound := (isReady_becomes idle.sound task).sound
      have records := verdict_records enter depth asked found (settled.at_rest open_task)
      refine .inr (.inl ⟨unfinished, ready, ?_⟩)
      rw [settle_lastProgress, settle_clock, records]
      rfl
    · next waits => exact .inr (.inr ⟨unfinished, Bool.eq_false_iff.mpr waits, rfl⟩)

theorem judge_scheduler (enter : ρ → Script ρ ε) (depth task : Nat) (w : World ρ ε) :
    ∃ queue live lastProgress, (w.judge (Script.execute enter depth) task).2.scheduler =
      { w.scheduler with queue, live, lastProgress } := by
  unfold judge
  split
  · exact ⟨_, _, _, rfl⟩
  · dsimp only
    split
    · obtain ⟨lastProgress, decided⟩ := verdict_scheduler task
        ((w.isReady task).2.runTask (Script.execute enter depth) task).2
        ((w.isReady task).2.runTask (Script.execute enter depth) task).1
      rw [decided, runTask_scheduler (Script.execute_spawns enter depth), Scheduler.spawnAll_eq]
      exact ⟨_, _, _, rfl⟩
    · exact ⟨_, _, _, rfl⟩

theorem dispatch_settings (enter : ρ → Script ρ ε) (depth task : Nat) (w : World ρ ε) :
    (w.dispatch (Script.execute enter depth) task).2.scheduler.settings = w.scheduler.settings := by
  obtain ⟨queue, live, lastProgress, judged⟩ := judge_scheduler enter depth task w
  rw [dispatch_eq, (settle_settings ..).2.2, judged]

theorem Turned.settings {misses later : Nat} {v : World ρ ε}
    (turned : w.Turned (Script.execute enter depth) misses later v) :
    v.scheduler.settings = w.scheduler.settings := by
  have dispatched {task : Nat} {taken : World ρ ε}
      (took : w.timedOut.2.take? = some (task, taken)) :
      (taken.dispatch (Script.execute enter depth) task).2.scheduler.settings =
        w.scheduler.settings := by
    obtain ⟨rest, -, rfl⟩ := take?_eq_some_iff.mp took
    rw [dispatch_settings, ← w.timedOut_scheduler]
    rfl
  cases turned with
  | starved => exact congrArg Scheduler.settings w.timedOut_scheduler
  | moved took | swept took | missed took => exact dispatched took

theorem Served.settings {misses : Nat} {start v : World ρ ε} {log : List (Dispatch ρ ε)}
    (served : Served (Script.execute enter depth) start misses log v) :
    v.scheduler.settings = start.scheduler.settings := by
  induction served with
  | begun => rfl
  | next _ goes ih =>
    obtain ⟨-, -, turned⟩ := turned_of_next goes
    exact turned.settings.trans ih

end

def givenSettings (settings : Settings) : List (SchedulerCall ρ ε) → Settings
  | [] => settings
  | .openScheduler later _ :: rest => givenSettings later rest
  | _ :: rest => givenSettings settings rest

theorem serveAll_timeout {settings : Settings} {calls : List (SchedulerCall ρ ε)} {w w' : World ρ ε}
    (given : w.scheduler.settings.idleTimeout = settings.idleTimeout)
    (served : w.serveAll calls = some w') :
    w'.scheduler.settings.idleTimeout = (givenSettings settings calls).idleTimeout := by
  induction calls generalizing w settings with
  | nil =>
    cases served
    exact given
  | cons call rest ih =>
    obtain ⟨v, first, later⟩ := Option.bind_eq_some_iff.mp served
    have spawned (u : World ρ ε) (task : Nat) :
        (u.spawn task).scheduler.settings = u.scheduler.settings := by
      rw [spawn_scheduler, Scheduler.spawnAll_eq]
    cases call with
    | openScheduler newer choice =>
      cases first
      exact ih rfl later
    | onTask call =>
      cases first
      refine ih (Eq.trans ?_ given) later
      cases call with
      | run task enter depth =>
        rw [answer, runTask_scheduler (Script.execute_spawns enter depth), Scheduler.spawnAll_eq]
      | create | cancel | ask => rfl
    | release latch =>
      cases first
      refine ih ?_ later
      exact given
    | spawn task =>
      cases first
      exact ih (by rw [spawned, given]) later
    | spawnRoutine entry =>
      cases first
      refine ih ?_ later
      rw [spawnRoutine, spawned]
      exact given
    | drive enter depth turns =>
      obtain ⟨⟨report, last⟩, finished, rfl⟩ := Option.map_eq_some_iff.mp first
      obtain ⟨-, misses, head, reached, stops⟩ := runCurrentThread_served finished
      refine ih (Eq.trans ?_ given) later
      rw [← reached.settings]
      rcases stopped_cases stops with ⟨-, rfl⟩ | ⟨-, rfl⟩
      · rfl
      · rw [timedOut_scheduler]

/-- The loop is still in time for all that happened: for the beginning of the run, and for each of
its dispatches that got a task on. -/
structure Watched (execute : Context ρ ε → Ending α × Context ρ ε) (start : World ρ ε) (span : Nat)
    (log : List (Dispatch ρ ε)) (v : World ρ ε) : Prop where
  recorded : v.scheduler.lastProgress ≤ v.clock.now
  began : start.beginRun.clock.now < v.scheduler.lastProgress + span
  progressed : ∀ d ∈ log, d.Progresses →
    (d.taken.dispatch execute d.task).2.clock.now < v.scheduler.lastProgress + span

/-- Time has passed since the run began, and since each of its dispatches that got a task on. -/
structure Idled (execute : Context ρ ε → Ending α × Context ρ ε) (start : World ρ ε)
    (log : List (Dispatch ρ ε)) (w' : World ρ ε) : Prop where
  began : start.beginRun.clock.now < w'.clock.now
  progressed : ∀ d ∈ log, d.Progresses →
    (d.taken.dispatch execute d.task).2.clock.now < w'.clock.now

theorem timedOut_limited {w : World ρ ε} {span : Nat}
    (limited : w.scheduler.settings.idleTimeout = some span) :
    w.timedOut.1 = true ↔ span ≤ w.timedOut.2.clock.now - w.scheduler.lastProgress := by
  unfold timedOut
  rw [limited]
  exact decide_eq_true_iff

namespace Watched

variable {execute : Context ρ ε → Ending α × Context ρ ε} {start v v' : World ρ ε} {span : Nat}
  {log : List (Dispatch ρ ε)}

theorem waits (watched : Watched execute start span log v)
    (same : v'.scheduler.lastProgress = v.scheduler.lastProgress)
    (later : v.clock.now ≤ v'.clock.now) : Watched execute start span log v' where
  recorded := same ▸ Nat.le_trans watched.recorded later
  began := same ▸ watched.began
  progressed := same ▸ watched.progressed

theorem dispatch {enter : ρ → Script ρ ε} {depth : Nat} {taken : World ρ ε} (positive : 0 < span)
    (idle : taken.Idle) (watched : Watched (Script.execute enter depth) start span log taken)
    (inTime : taken.clock.now < taken.scheduler.lastProgress + span) (task : Nat) :
    Watched (Script.execute enter depth) start span (log ++ [⟨task, taken⟩])
      (taken.dispatch (Script.execute enter depth) task).2 := by
  have advanced := dispatch_clock enter depth idle.sound task
  have outcomes := dispatch_cases enter depth idle task
  generalize after_eq : (taken.dispatch (Script.execute enter depth) task).2 = after at *
  have recorded := watched.recorded
  have kept : taken.scheduler.lastProgress ≤ after.scheduler.lastProgress ∧
      after.scheduler.lastProgress ≤ after.clock.now ∧
      ((⟨task, taken⟩ : Dispatch ρ ε).Progresses →
        after.clock.now < after.scheduler.lastProgress + span) := by
    -- To drop an entry sets no record, but the clock still stands where it was in time.
    rcases outcomes with ⟨-, rfl⟩ | ⟨-, -, record⟩ | ⟨unfinished, unready, rfl⟩
    · exact ⟨Nat.le_refl _, recorded, fun _ => inTime⟩
    · omega
    · refine ⟨Nat.le_refl _, Nat.le_trans recorded advanced, ?_⟩
      rintro (done | ready)
      · rw [unfinished] at done
        cases done
      · have waited : (⟨task, taken⟩ : Dispatch ρ ε).answer = false := unready
        rw [waited] at ready
        cases ready
  obtain ⟨later, past, progress⟩ := kept
  have began := watched.began
  refine ⟨past, by omega, fun d member progresses => ?_⟩
  rcases List.mem_append.mp member with earlier | own
  · have before := watched.progressed d earlier progresses
    omega
  · obtain rfl := List.mem_singleton.mp own
    rw [after_eq]
    exact progress progresses

theorem next {enter : ρ → Script ρ ε} {depth misses later : Nat} (positive : 0 < span)
    (idle : v.Idle) (watched : Watched (Script.execute enter depth) start span log v)
    (limited : v.scheduler.settings.idleTimeout = some span)
    (goes : v.turn (Script.execute enter depth) misses = .next later v') :
    Watched (Script.execute enter depth) start span (log ++ v.dispatches) v' := by
  obtain ⟨-, inTime, turned⟩ := turned_of_next goes
  -- The clock was looked at before an entry is taken, and a late loop would have stopped there.
  have inTime : v.timedOut.2.clock.now < v.scheduler.lastProgress + span := by
    have unpassed := mt (timedOut_limited limited).mpr (by simp [inTime])
    omega
  have checked : Watched (Script.execute enter depth) start span log v.timedOut.2 :=
    watched.waits (by rw [timedOut_scheduler]) v.timedOut_clock
  have dispatched {task : Nat} {taken : World ρ ε}
      (took : v.timedOut.2.take? = some (task, taken)) :
      Watched (Script.execute enter depth) start span (log ++ v.dispatches)
        (taken.dispatch (Script.execute enter depth) task).2 := by
    rw [dispatches_of_take took]
    obtain ⟨rest, -, same⟩ := take?_eq_some_iff.mp took
    have idle' : taken.Idle := by
      rw [same]
      exact (Becomes.of_tasks_eq idle.sound v.timedOut_tasks).idle idle
    have record : taken.scheduler.lastProgress = v.scheduler.lastProgress := by
      rw [same, ← v.timedOut_scheduler]
      rfl
    have clock : taken.clock = v.timedOut.2.clock := by rw [same]; rfl
    refine Watched.dispatch positive idle' ?_ ?_ task
    · exact watched.waits record (clock ▸ v.timedOut_clock)
    · rw [clock, record]
      exact inTime
  cases turned with
  | starved empty =>
    have nothing : v.dispatches = [] := by simp [dispatches, empty]
    rw [nothing, List.append_nil]
    exact checked.waits rfl (Nat.le_add_right ..)
  | moved took | missed took => exact dispatched took
  | swept took => exact (dispatched took).waits rfl (Nat.le_add_right ..)

end Watched

theorem Served.watched {enter : ρ → Script ρ ε} {depth misses span : Nat} {start v : World ρ ε}
    {log : List (Dispatch ρ ε)} (idle : start.Idle) (balanced : start.scheduler.Balanced)
    (limited : start.scheduler.settings.idleTimeout = some span) (positive : 0 < span)
    (served : Served (Script.execute enter depth) start misses log v) :
    Watched (Script.execute enter depth) start span log v := by
  induction served with
  | begun =>
    have recorded : start.beginRun.scheduler.lastProgress = start.beginRun.clock.now := rfl
    refine ⟨Nat.le_of_eq recorded, by omega, ?_⟩
    intro d member
    cases member
  | next served goes ih =>
    obtain ⟨spawned, head⟩ := served.head
    have limited' := limited
    rw [← served.settings] at limited'
    exact ih.next positive (Accounted.head idle balanced head).idle limited' goes

theorem runCurrentThread_idled {enter : ρ → Script ρ ε} {depth turns : Nat} (start : World ρ ε)
    {w' : World ρ ε} {report : SchedulerReport} (idle : start.Idle)
    (balanced : start.scheduler.Balanced)
    (patient : start.scheduler.settings.idleTimeout ≠ some 0)
    (finished : start.runCurrentThread (Script.execute enter depth) turns = some (report, w'))
    (left : 0 < report.pending) :
    Idled (Script.execute enter depth) start
      (loopLog (Script.execute enter depth) turns 0 start.beginRun) w' := by
  obtain ⟨rfl, misses, v, served, stops⟩ := runCurrentThread_served finished
  have settings := served.settings
  rcases stopped_cases stops with ⟨ended, rfl⟩ | ⟨late, rfl⟩
  · exact absurd ended (Nat.ne_of_gt left)
  cases limited : start.scheduler.settings.idleTimeout with
  | none =>
    rw [timedOut_unlimited (settings ▸ limited)] at late
    cases late
  | some span =>
    have positive : 0 < span := by
      apply Nat.pos_of_ne_zero
      rintro rfl
      exact patient limited
    have watched := served.watched idle balanced limited positive
    have passed := (timedOut_limited (settings ▸ limited)).mp late
    have began := watched.began
    refine ⟨by omega, fun d member progresses => ?_⟩
    have before := watched.progressed d member progresses
    omega

theorem runCurrentThread_at_once (execute : Context ρ ε → Ending α × Context ρ ε) {w : World ρ ε}
    (hasty : w.scheduler.settings.idleTimeout = some 0) (live : w.scheduler.live ≠ 0) :
    w.runCurrentThread execute 1 = some (w.beginRun.timedOut.2.scheduler.report,
      w.beginRun.timedOut.2) := by
  have limited : w.beginRun.scheduler.settings.idleTimeout = some 0 := hasty
  have late := (timedOut_limited limited).mpr (Nat.zero_le _)
  have live : w.beginRun.scheduler.live ≠ 0 := live
  have stops : w.beginRun.turn execute 0 = .stopped w.beginRun.timedOut.2 := by
    unfold turn
    rw [if_neg live]
    dsimp only
    rw [if_pos late]
  rw [runCurrentThread, runTurns, stops]
  rfl

/-- Whatever happened to a scheduler, and however the clock goes on: a run on one thread that leaves
tasks has let time pass since it began and since each of its dispatches that got a task on, and
while the clock stands still it leaves nothing queued, exactly if the scheduler in use was not
opened with a timeout of zero. -/
theorem gives_up_after_idle_time_iff (w : World ρ ε) (settings : Settings)
    (choice : ClassifierChoice) (calls : List (SchedulerCall ρ ε)) {start : World ρ ε}
    (served : ({ w with tasks := [] }.openScheduler settings choice).serveAll calls = some start)
    (queued : start.scheduler.queue.entries ≠ []) :
    (∀ (clock : Clock) (enter : ρ → Script ρ ε) (depth turns : Nat) (report : SchedulerReport)
      (w' : World ρ ε),
      { start with clock }.runCurrentThread (Script.execute enter depth) turns =
        some (report, w') →
      (0 < report.pending → Idled (Script.execute enter depth) { start with clock }
        (loopLog (Script.execute enter depth) turns 0 { start with clock }.beginRun) w') ∧
      (w'.clock.now = clock.now → w'.scheduler.queue.entries = [])) ↔
    (givenSettings settings calls).idleTimeout ≠ some 0 := by
  have opened : ({ w with tasks := [] }.openScheduler settings choice).Idle := idle_of_empty w
  obtain ⟨idle, balanced⟩ := serveAll_settles opened rfl calls served
  have timeout : start.scheduler.settings.idleTimeout =
      (givenSettings settings calls).idleTimeout := serveAll_timeout rfl served
  rw [← timeout]
  constructor
  · intro idles hasty
    have live : start.scheduler.live ≠ 0 := by
      rw [balanced]
      exact mt List.length_eq_zero_iff.mp queued
    have stopped := runCurrentThread_at_once (w := { start with clock := {} })
      (Script.execute (fun _ => .done (.returned .unit)) 0) hasty live
    have unmoved : ({ start with clock := {} } : World ρ ε).beginRun.timedOut.2.clock.now = 0 := by
      unfold timedOut
      split <;> rfl
    have nothing := (idles {} _ 0 1 _ _ stopped).2 unmoved
    rw [timedOut_scheduler] at nothing
    exact queued nothing
  · intro patient clock enter depth turns report w' finished
    have idled := runCurrentThread_idled { start with clock } idle balanced patient finished
    refine ⟨idled, fun frozen => ?_⟩
    have ended : ({ start with clock } : World ρ ε).serve (.drive enter depth turns) = some w' := by
      simp only [serve, finished, Option.map_some]
    have counted : w'.scheduler.live = w'.scheduler.queue.size :=
      (serve_settles (w := { start with clock }) idle balanced _ ended).2
    obtain ⟨rfl, -⟩ := runCurrentThread_served finished
    by_contra left
    have waits : 0 < w'.scheduler.live := by
      rw [counted]
      exact List.length_pos_iff.mpr left
    have began := (idled waits).began
    have advanced : clock.now ≤ ({ start with clock } : World ρ ε).beginRun.clock.now :=
      Nat.le_add_right ..
    omega

end World

theorem hasty_errand_waits_in_vain :
    let execute := Script.execute Errand.script 1
    Errand.hasty.scheduler.queue.entries ≠ [] ∧ ∃ w' d,
      Errand.hasty.runCurrentThread execute 4 = some (⟨0, 0, 1⟩, w') ∧
      d ∈ World.loopLog execute 4 0 Errand.hasty.beginRun ∧ d.Progresses ∧
      (d.taken.dispatch execute d.task).2.clock.now < w'.clock.now := by
  intro execute
  have queued : Errand.hasty.scheduler.queue.entries ≠ [] := by decide
  have evaluated : ((Errand.hasty.runCurrentThread execute 4).map Prod.fst,
      (World.loopLog execute 4 0 Errand.hasty.beginRun).map Dispatch.answer) =
      (some ⟨0, 0, 1⟩, [true, false, false]) := by
    decide +kernel
  obtain ⟨ran, seen⟩ := Prod.mk.inj evaluated
  obtain ⟨⟨_, w'⟩, finished, rfl⟩ := Option.map_eq_some_iff.mp ran
  obtain ⟨d, rest, log, ready, -⟩ := List.map_eq_cons_iff.mp seen
  have logged : d ∈ World.loopLog execute 4 0 Errand.hasty.beginRun := by
    rw [log]
    exact List.mem_cons_self
  have served : (({ tasks := [], scheduler := default } : World Errand Nat).openScheduler
      { workerThreads := 1, idleTimeout := some 1 } (.given 0)).serveAll
        [.onTask (.create .waits 0), .spawn 0] = some Errand.hasty := rfl
  have idles := (World.gives_up_after_idle_time_iff { scheduler := default }
    { workerThreads := 1, idleTimeout := some 1 } (.given 0)
    [.onTask (.create .waits 0), .spawn 0] served queued).mpr (by decide)
  have idled := (idles Errand.hasty.clock Errand.script 1 4 _ w' finished).1 (by decide)
  exact ⟨queued, w', d, finished, logged, .inr ready, idled.progressed d logged (.inr ready)⟩

/-- The environment may set a timeout of zero, and normalising leaves it. The scheduler then stops
before it has taken the new task from its queue, and the clock has stood still. -/
theorem zero_timeout_leaves_new_task :
    ∃ settings, (Settings.standard 1).ofEnvironment (fun name =>
        if name = "WEFT_IDLE_TIMEOUT_MS" then some "0".toUTF8 else none) = .ok settings ∧
      let start := (({ scheduler := default } : World Unit Unit).openScheduler settings
        (.given 0)).spawnRoutine ()
      ∃ w', start.runCurrentThread (Script.execute (fun _ => .done (.returned .unit)) 1) 1 =
          some (⟨0, 0, 1⟩, w') ∧ w'.clock.now = start.clock.now ∧
        w'.scheduler.queue.entries = [0] ∧ w'.tasks.map Task.state = [.new] :=
  ⟨_, rfl, _, rfl, rfl, rfl, rfl⟩

end ResumableTasks
