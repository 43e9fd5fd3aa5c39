import Mathlib.Data.List.Flatten
import ResumableTasks.Proofs.EndedRuns
/-!
How the reports of a scheduler count tasks. A dispatch that brings its task to an end counts it as
this end is noted, so that such counts are right and never repeat. An entry may also be found stale:
its task is done already, by an end that came about elsewhere. Such an entry is counted as completed
whatever that end was.
-/
namespace ResumableTasks

variable {ρ ε α : Type}

def Verdict.counted? (task : Nat) : Verdict → Option (Nat × Bool)
  | .retired abandoned => some (task, abandoned)
  | .putBack _ => none

namespace Dispatch

def counted? (execute : Context ρ ε → Ending α × Context ρ ε) (d : Dispatch ρ ε) :
    Option (Nat × Bool) :=
  (d.taken.judge execute d.task).1.counted? d.task

def isStale (d : Dispatch ρ ε) : Bool := d.taken.isDone d.task

/-- What is counted if the entry was not stale. -/
def fresh? (execute : Context ρ ε → Ending α × Context ρ ε) (d : Dispatch ρ ε) :
    Option (Nat × Bool) :=
  if d.isStale then none else d.counted? execute

theorem counted?_of_stale {execute : Context ρ ε → Ending α × Context ρ ε} {d : Dispatch ρ ε}
    (stale : d.isStale = true) : d.counted? execute = some (d.task, false) := by
  have done : d.taken.isDone d.task = true := stale
  rw [counted?, World.judge, if_pos done]
  rfl

end Dispatch

namespace World

variable {enter : ρ → Script ρ ε} {depth : Nat}

theorem verdict_counted? {w : World ρ ε} (sound : w.Sound) {task : Nat} {t : Task ρ}
    (found : w.tasks[task]? = some t) (idle : t.state = .new ∨ t.state = .suspended) :
    let ran := w.runTask (Script.execute enter depth) task
    ((ran.2.verdict task ran.1).1.counted? task).toList =
      w.ownEnd (Script.execute enter depth) task := by
  intro ran
  have unfinished : w.isDone task = false := by
    rw [isDone_of_found found]
    rcases idle with state | state <;> simp [Task.isDone_eq, state]
  obtain ⟨⟨t', later, records⟩, fatal⟩ := runTask_records enter depth sound found idle
  rw [verdict_of_records later records fatal]
  simp only [ownEnd, unfinished, true_and]
  split <;> rfl

theorem fresh?_sublist_ends {d : Dispatch ρ ε} (idle : d.taken.Idle) :
    (d.fresh? (Script.execute enter depth)).toList.Sublist (d.ends enter depth) := by
  unfold Dispatch.fresh? Dispatch.ends Dispatch.isStale
  split
  · exact List.nil_sublist _
  · next unfinished =>
    have unfinished : d.taken.isDone d.task = false := Bool.eq_false_iff.mpr unfinished
    by_cases ready : d.answer = true
    · obtain ⟨t, found, settled, open_task⟩ := ready_found idle unfinished ready
      have asked := (isReady_becomes idle.sound d.task).sound
      have counted : (d.counted? (Script.execute enter depth)).toList =
          (d.taken.isReady d.task).2.ownEnd (Script.execute enter depth) d.task := by
        have answered : (d.taken.isReady d.task).1 = true := ready
        simp only [Dispatch.counted?, judge, unfinished, Bool.false_eq_true, ↓reduceIte, answered]
        exact verdict_counted? asked found (settled.at_rest open_task)
      rw [if_pos ready, counted]
      exact List.sublist_append_right ..
    · have unanswered : ¬ (d.taken.isReady d.task).1 = true := ready
      have uncounted : d.counted? (Script.execute enter depth) = none := by
        simp only [Dispatch.counted?, judge, unfinished, Bool.false_eq_true, ↓reduceIte, unanswered]
        rfl
      rw [uncounted]
      exact List.nil_sublist _

structure Counts (counted : List (Nat × Bool)) (v : World ρ ε) : Prop where
  completed : v.scheduler.completed = counted.countP (! ·.2)
  failed : v.scheduler.failed = counted.countP (·.2)

theorem Counts.of_same {counted : List (Nat × Bool)} {v v' : World ρ ε} (counts : Counts counted v)
    (completed : v'.scheduler.completed = v.scheduler.completed)
    (failed : v'.scheduler.failed = v.scheduler.failed) : Counts counted v' :=
  ⟨completed.trans counts.completed, failed.trans counts.failed⟩

theorem Counts.dispatch {counted : List (Nat × Bool)} {d : Dispatch ρ ε}
    (counts : Counts counted d.taken) :
    Counts (counted ++ (d.counted? (Script.execute enter depth)).toList)
      (d.taken.dispatch (Script.execute enter depth) d.task).2 := by
  obtain ⟨queue, live, lastProgress, judged⟩ := judge_scheduler enter depth d.task d.taken
  have completed := congrArg Scheduler.completed judged
  have failed := congrArg Scheduler.failed judged
  have kept := counts.of_same completed failed
  rw [dispatch_eq, Dispatch.counted?]
  cases verdict : (d.taken.judge (Script.execute enter depth) d.task).1 with
  | putBack moved =>
    rw [Verdict.counted?, Option.toList_none, List.append_nil]
    exact kept.of_same rfl rfl
  | retired abandoned =>
    obtain ⟨completed, failed⟩ := kept
    constructor
    · cases abandoned <;>
        simp [settle, updateScheduler, Scheduler.retire, Scheduler.count, Scheduler.drop,
          Verdict.counted?, completed]
    · cases abandoned <;>
        simp [settle, updateScheduler, Scheduler.retire, Scheduler.count, Scheduler.drop,
          Verdict.counted?, failed]

theorem Served.counts {misses : Nat} {start v : World ρ ε} {log : List (Dispatch ρ ε)}
    (served : Served (Script.execute enter depth) start misses log v) :
    Counts (log.filterMap (Dispatch.counted? (Script.execute enter depth))) v := by
  induction served with
  | begun => exact ⟨rfl, rfl⟩
  | @next _ _ log v v' _ goes ih =>
    obtain ⟨-, -, turned⟩ := turned_of_next goes
    have dispatched {task : Nat} {taken : World ρ ε}
        (took : v.timedOut.2.take? = some (task, taken)) :
        Counts ((log ++ v.dispatches).filterMap (Dispatch.counted? (Script.execute enter depth)))
          (taken.dispatch (Script.execute enter depth) task).2 := by
      obtain ⟨rest, -, same⟩ := take?_eq_some_iff.mp took
      have before : Counts (log.filterMap (Dispatch.counted? (Script.execute enter depth)))
          taken := by
        refine ih.of_same ?_ ?_
        · rw [same, ← v.timedOut_scheduler]
          rfl
        · rw [same, ← v.timedOut_scheduler]
          rfl
      rw [List.filterMap_append, dispatches_of_take took,
        List.filterMap_eq_flatMap_toList _ [_], List.flatMap_singleton]
      exact before.dispatch
    cases turned with
    | starved empty =>
      have nothing : v.dispatches = [] := by simp [dispatches, empty]
      rw [nothing, List.append_nil]
      exact ih.of_same (congrArg Scheduler.completed v.timedOut_scheduler)
        (congrArg Scheduler.failed v.timedOut_scheduler)
    | moved took | missed took => exact dispatched took
    | swept took => exact (dispatched took).of_same rfl rfl

theorem dispatches_tasks {w : World ρ ε} {d : Dispatch ρ ε} (member : d ∈ w.dispatches) :
    d.taken.tasks = w.tasks := by
  obtain ⟨taken, took, rfl⟩ := List.mem_map.mp member
  obtain ⟨rest, -, same⟩ := take?_eq_some_iff.mp (Option.mem_toList.mp took)
  rw [same]
  exact w.timedOut_tasks

theorem Served.at_dispatch {misses : Nat} {start v : World ρ ε} {log : List (Dispatch ρ ε)}
    (idle : start.Idle) (served : Served (Script.execute enter depth) start misses log v)
    {d : Dispatch ρ ε} (member : d ∈ log) :
    d.taken.Idle ∧ ∀ i, d.taken.isDone i = true → v.isDone i = true := by
  induction served with
  | begun => cases member
  | @next _ _ _ v v' served goes ih =>
    obtain ⟨-, -, turned⟩ := turned_of_next goes
    have becomes := served.becomes idle.sound
    have kept := (turned.brings_ends becomes.sound).kept
    rcases List.mem_append.mp member with earlier | own
    · obtain ⟨still, done⟩ := ih earlier
      exact ⟨still, fun i before => kept i (done i before)⟩
    · have same := dispatches_tasks own
      have taken := becomes.trans (Becomes.of_tasks_eq becomes.sound same)
      refine ⟨taken.idle idle, fun i before => ?_⟩
      rw [isDone_congr same] at before
      exact kept i before

end World

structure SchedulerRun (ρ ε : Type) where
  start : World ρ ε
  enter : ρ → Script ρ ε
  depth : Nat
  turns : Nat

namespace SchedulerRun

def execute (r : SchedulerRun ρ ε) : Context ρ ε → Ending Unit × Context ρ ε :=
  Script.execute r.enter r.depth

def report? (r : SchedulerRun ρ ε) : Option (SchedulerReport × World ρ ε) :=
  r.start.runCurrentThread r.execute r.turns

def dispatches (r : SchedulerRun ρ ε) : List (Dispatch ρ ε) :=
  World.loopLog r.execute r.turns 0 r.start.beginRun

def ends (r : SchedulerRun ρ ε) : List (Nat × Bool) :=
  r.dispatches.flatMap (Dispatch.ends r.enter r.depth)

def counted (r : SchedulerRun ρ ε) : List (Nat × Bool) :=
  r.dispatches.filterMap (Dispatch.counted? r.execute)

def fresh (r : SchedulerRun ρ ε) : List (Nat × Bool) :=
  r.dispatches.filterMap (Dispatch.fresh? r.execute)

/-- A run as a history has it: it begins between two calls and comes to its end. -/
structure Proper (r : SchedulerRun ρ ε) : Prop where
  idle : r.start.Idle
  finishes : r.report?.isSome

variable {r : SchedulerRun ρ ε}

theorem served {report : SchedulerReport} {last : World ρ ε}
    (finished : r.report? = some (report, last)) :
    report = last.scheduler.report ∧ ∃ misses head,
      World.Served r.execute r.start misses r.dispatches head ∧
      last.tasks = head.tasks ∧ last.scheduler = head.scheduler := by
  obtain ⟨same, misses, head, served, stops⟩ := World.runCurrentThread_served finished
  refine ⟨same, misses, head, served, ?_⟩
  rcases World.stopped_cases stops with ⟨-, rfl⟩ | ⟨-, rfl⟩
  · exact ⟨rfl, rfl⟩
  · exact ⟨head.timedOut_tasks, head.timedOut_scheduler⟩

theorem report_counts {report : SchedulerReport} {last : World ρ ε}
    (finished : r.report? = some (report, last)) :
    report.completed = r.counted.countP (! ·.2) ∧ report.failed = r.counted.countP (·.2) := by
  obtain ⟨rfl, misses, head, served, -, same⟩ := served finished
  have counts := (World.Served.counts served).of_same (congrArg Scheduler.completed same)
    (congrArg Scheduler.failed same)
  exact ⟨counts.completed, counts.failed⟩

theorem fresh_sublist_ends (proper : r.Proper) : r.fresh.Sublist r.ends := by
  obtain ⟨⟨report, last⟩, finished⟩ := Option.isSome_iff_exists.mp proper.finishes
  obtain ⟨-, misses, head, served, -⟩ := served finished
  rw [fresh, List.filterMap_eq_flatMap_toList]
  exact List.Sublist.flatMap_right _ fun d member =>
    World.fresh?_sublist_ends (World.Served.at_dispatch proper.idle served member).1

theorem brings_ends {report : SchedulerReport} {last : World ρ ε} (proper : r.Proper)
    (finished : r.report? = some (report, last)) : r.start.Ends r.ends last :=
  World.runCurrentThread_brings_ends proper.idle.sound finished

theorem mem_counted_iff {count : Nat × Bool} :
    count ∈ r.counted ↔ (∃ d ∈ r.dispatches, d.isStale = true ∧ count = (d.task, false)) ∨
      count ∈ r.fresh := by
  simp only [counted, fresh, List.mem_filterMap]
  constructor
  · rintro ⟨d, member, counts⟩
    cases stale : d.isStale with
    | true =>
      rw [Dispatch.counted?_of_stale stale] at counts
      exact .inl ⟨d, member, stale, (Option.some.inj counts).symm⟩
    | false => exact .inr ⟨d, member, by rw [Dispatch.fresh?, if_neg (by simp [stale]), counts]⟩
  · rintro (⟨d, member, stale, rfl⟩ | ⟨d, member, counts⟩)
    · exact ⟨d, member, Dispatch.counted?_of_stale stale⟩
    · rw [Dispatch.fresh?, Option.ite_none_left_eq_some] at counts
      exact ⟨d, member, counts.2⟩

theorem counted_filter {i : Nat} (unstale : ∀ d ∈ r.dispatches, d.isStale = true → d.task ≠ i) :
    r.counted.filter (·.1 = i) = r.fresh.filter (·.1 = i) := by
  rw [counted, fresh, List.filter_filterMap, List.filter_filterMap]
  refine List.filterMap_congr fun d member => ?_
  cases stale : d.isStale with
  | true =>
    have other := unstale d member stale
    rw [Dispatch.counted?_of_stale stale, Dispatch.fresh?, if_pos stale]
    simp [other]
  | false => rw [Dispatch.fresh?, if_neg (by simp [stale])]

end SchedulerRun

/-- Over these runs, and with these ends before, between and in them: each task is counted at most
once, one whose run surfaced a fatal error is not counted as completed, and what a run counts as
completed came to its end during the run. -/
structure CountsRightly (runs : List (SchedulerRun ρ ε)) (ends : List (Nat × Bool)) : Prop where
  once : ((runs.flatMap SchedulerRun.counted).map Prod.fst).Nodup
  apart : ∀ i, (i, true) ∈ ends → (i, false) ∉ runs.flatMap SchedulerRun.counted
  within : ∀ r ∈ runs, ∀ i, (i, false) ∈ r.counted → r.start.isDone i = false ∧
    ∀ report last, r.report? = some (report, last) → last.isDone i = true

namespace World

def schedulerRuns : World ρ ε → List (SchedulerCall ρ ε) → List (SchedulerRun ρ ε)
  | _, [] => []
  | w, call :: rest =>
    let later := (w.serve call).elim [] (schedulerRuns · rest)
    match call with
    | .drive enter depth turns => ⟨w, enter, depth, turns⟩ :: later
    | _ => later

theorem history_runs {w past : World ρ ε} (idle : w.Idle) (balanced : w.scheduler.Balanced)
    {calls : List (SchedulerCall ρ ε)} (served : w.serveAll calls = some past) :
    (∀ r ∈ w.schedulerRuns calls, r.Proper) ∧
      ((w.schedulerRuns calls).flatMap SchedulerRun.ends).Sublist (w.historyEnds calls) := by
  induction calls generalizing w with
  | nil => exact ⟨by simp [schedulerRuns], List.nil_sublist _⟩
  | cons call rest ih =>
    obtain ⟨v, first, later⟩ := Option.bind_eq_some_iff.mp served
    obtain ⟨idle', balanced'⟩ := serve_settles idle balanced call first
    obtain ⟨proper, within⟩ := ih idle' balanced' later
    simp only [schedulerRuns, historyEnds, first, Option.elim_some]
    split
    · next enter depth turns =>
      obtain ⟨finished, ran, -⟩ := Option.map_eq_some_iff.mp first
      refine ⟨List.forall_mem_cons.mpr ⟨⟨idle, by rw [Option.isSome_iff_exists]; exact ⟨_, ran⟩⟩,
        proper⟩, ?_⟩
      rw [List.flatMap_cons]
      exact (List.Sublist.refl _).append within
    · exact ⟨proper, within.trans (List.sublist_append_right ..)⟩

end World

namespace CountsRightly

variable {runs : List (SchedulerRun ρ ε)} {ends : List (Nat × Bool)}

theorem count_task (counted : List (Nat × Bool)) (i : Nat) :
    (counted.map Prod.fst).count i = (counted.filter (·.1 = i)).length := by
  rw [List.count, List.countP_map, List.countP_eq_length_filter]
  rfl

theorem of_stale (rightly : CountsRightly runs ends) {r : SchedulerRun ρ ε} (among : r ∈ runs)
    {d : Dispatch ρ ε} (member : d ∈ r.dispatches) (stale : d.isStale = true) :
    r.start.isDone d.task = false ∧ (d.task, true) ∉ ends ∧
      ((runs.flatMap SchedulerRun.counted).map Prod.fst).count d.task = 1 := by
  have counted : (d.task, false) ∈ r.counted :=
    SchedulerRun.mem_counted_iff.mpr (.inl ⟨d, member, stale, rfl⟩)
  have overall : (d.task, false) ∈ runs.flatMap SchedulerRun.counted :=
    List.mem_flatMap.mpr ⟨r, among, counted⟩
  refine ⟨(rightly.within r among d.task counted).1, fun failed => ?_, ?_⟩
  · exact rightly.apart d.task failed overall
  · exact List.count_eq_one_of_mem rightly.once (List.mem_map.mpr ⟨_, overall, rfl⟩)

/-- All that is counted but for stale entries is an end, and ends are told apart by their task. -/
theorem of_fitting_stale (proper : ∀ r ∈ runs, r.Proper) (distinct : (ends.map Prod.fst).Nodup)
    (within : (runs.flatMap SchedulerRun.ends).Sublist ends)
    (fits : ∀ r ∈ runs, ∀ d ∈ r.dispatches, d.isStale = true →
      r.start.isDone d.task = false ∧ (d.task, true) ∉ ends ∧
        ((runs.flatMap SchedulerRun.counted).map Prod.fst).count d.task = 1) :
    CountsRightly runs ends := by
  have fresh : (runs.flatMap SchedulerRun.fresh).Sublist ends :=
    (List.Sublist.flatMap_right runs fun r among =>
      SchedulerRun.fresh_sublist_ends (proper r among)).trans within
  constructor
  · rw [List.nodup_iff_count_le_one]
    intro i
    by_cases stale : ∃ r ∈ runs, ∃ d ∈ r.dispatches, d.isStale = true ∧ d.task = i
    · obtain ⟨r, among, d, member, stale, rfl⟩ := stale
      exact Nat.le_of_eq (fits r among d member stale).2.2
    · have same : (runs.flatMap SchedulerRun.counted).filter (·.1 = i) =
          (runs.flatMap SchedulerRun.fresh).filter (·.1 = i) := by
        rw [List.filter_flatMap, List.filter_flatMap]
        refine List.flatMap_congr fun r among => SchedulerRun.counted_filter ?_
        exact fun d member found here => stale ⟨r, among, d, member, found, here⟩
      rw [count_task, same, ← count_task]
      exact List.nodup_iff_count_le_one.mp ((fresh.map Prod.fst).nodup distinct) i
  · intro i failed counted
    obtain ⟨r, among, here⟩ := List.mem_flatMap.mp counted
    rcases SchedulerRun.mem_counted_iff.mp here with ⟨d, member, stale, same⟩ | own
    · obtain rfl := (Prod.mk.inj same).1
      exact (fits r among d member stale).2.1 failed
    · have ended := fresh.subset (List.mem_flatMap.mpr ⟨r, among, own⟩)
      have same := List.inj_on_of_nodup_map distinct ended failed rfl
      cases same
  · intro r among i counted
    have proper := proper r among
    rcases SchedulerRun.mem_counted_iff.mp counted with ⟨d, member, stale, same⟩ | own
    · obtain rfl := (Prod.mk.inj same).1
      refine ⟨(fits r among d member stale).1, fun report last finished => ?_⟩
      obtain ⟨-, misses, head, served, tasks, -⟩ := SchedulerRun.served finished
      rw [World.isDone_congr tasks]
      exact (World.Served.at_dispatch proper.idle served member).2 _ stale
    · obtain ⟨⟨report, last⟩, finished⟩ := Option.isSome_iff_exists.mp proper.finishes
      have ended := ((SchedulerRun.brings_ends proper finished).members i).mp
        (List.mem_map.mpr ⟨_, (SchedulerRun.fresh_sublist_ends proper).subset own, rfl⟩)
      refine ⟨ended.1, fun report' last' finished' => ?_⟩
      cases finished.symm.trans finished'
      exact ended.2

end CountsRightly

/-- Whatever happened to a scheduler, the reports of all its runs have the numbers of the entries
that were counted. They count tasks rightly exactly if each stale entry that was taken is the only
one counted of its task, and this task was open when that run began and was ended without a fatal
error. -/
theorem World.reports_count_rightly_iff (w : World ρ ε) (settings : Settings)
    (choice : ClassifierChoice) (calls : List (SchedulerCall ρ ε)) {past : World ρ ε}
    (served : ({ w with tasks := [] }.openScheduler settings choice).serveAll calls = some past) :
    let opened := { w with tasks := [] }.openScheduler settings choice
    let runs := opened.schedulerRuns calls
    let ends := opened.historyEnds calls
    (∀ r ∈ runs, ∃ report last, r.report? = some (report, last) ∧
      report.completed = r.counted.countP (! ·.2) ∧ report.failed = r.counted.countP (·.2)) ∧
    (CountsRightly runs ends ↔ ∀ r ∈ runs, ∀ d ∈ r.dispatches, d.isStale = true →
      r.start.isDone d.task = false ∧ (d.task, true) ∉ ends ∧
        ((runs.flatMap SchedulerRun.counted).map Prod.fst).count d.task = 1) := by
  intro opened runs ends
  have idle : opened.Idle := idle_of_empty w
  obtain ⟨proper, within⟩ := history_runs idle rfl served
  have distinct := (history_brings_ends idle rfl served).distinct
  refine ⟨fun r among => ?_, fun rightly r among d member stale => ?_, fun fits => ?_⟩
  · obtain ⟨⟨report, last⟩, finished⟩ := Option.isSome_iff_exists.mp (proper r among).finishes
    exact ⟨report, last, finished, SchedulerRun.report_counts finished⟩
  · exact rightly.of_stale among member stale
  · exact .of_fitting_stale proper distinct within fits

inductive Chore where
  | returns
  | fails
  | helps (task : Nat)

namespace Chore

def script : Chore → Script Chore Unit
  | returns => .done (.returned .unit)
  | fails => .act .look fun view => .done (.unwound (view.unknownMarker 3))
  | helps task => .act (.run task) fun _ => .done (.returned .unit)

def opened : World Chore Unit :=
  { tasks := [], scheduler := default : World Chore Unit }.openScheduler (.standard 1) (.given 0)

def helped : List (SchedulerCall Chore Unit) :=
  [.onTask (.create (.helps 1) 0), .onTask (.create .returns 0), .onTask (.create .fails 0),
    .spawn 0, .spawn 1, .spawn 2, .drive script 2 4]

def repeated : List (SchedulerCall Chore Unit) :=
  [.onTask (.create .fails 0), .onTask (.create .returns 0), .spawn 0, .spawn 0, .spawn 1,
    .onTask (.run 1 script 1), .drive script 1 4]

end Chore

open Chore in
theorem helped_chore_is_counted_rightly :
    let runs := opened.schedulerRuns helped
    runs.map SchedulerRun.counted = [[(0, false), (1, false), (2, true)]] ∧
    (runs.map fun r => r.dispatches.map Dispatch.isStale) = [[false, true, false]] ∧
    CountsRightly runs (opened.historyEnds helped) := by
  intro runs
  obtain ⟨past, served⟩ : ∃ past, opened.serveAll helped = some past := ⟨_, rfl⟩
  have iff := (World.reports_count_rightly_iff { scheduler := default } (.standard 1) (.given 0)
    helped served).2
  refine ⟨by decide +kernel, by decide +kernel, iff.mpr (by decide +kernel)⟩

open Chore in
/-- A task that failed is counted as completed too, and so is one that was done before the run. -/
theorem stale_chores_are_counted_as_completed :
    let runs := opened.schedulerRuns repeated
    (runs.map fun r => r.report?.map Prod.fst) = [some ⟨2, 1, 0⟩] ∧
    opened.historyEnds repeated = [(1, false), (0, true)] ∧
    runs.map SchedulerRun.counted = [[(0, true), (0, false), (1, false)]] ∧
    ¬ CountsRightly runs (opened.historyEnds repeated) := by
  intro runs
  have counted : runs.flatMap SchedulerRun.counted = [(0, true), (0, false), (1, false)] := by
    decide +kernel
  refine ⟨by decide +kernel, by decide +kernel, by decide +kernel, fun rightly => ?_⟩
  have once := rightly.once
  rw [counted] at once
  exact absurd once (by decide)

end ResumableTasks
