import ResumableTasks.Proofs.IdleTimeout
/-!
Which runs bring their tasks to an end. Beside every run stand the ends that come about in it: those
of the tasks that its routine runs, and at last its own. They are exactly the tasks that are done
afterwards and were not before, each once, whether the owner, the scheduler or a routine ran them.
-/
namespace ResumableTasks

variable {ρ ε α : Type}

namespace World

/-- A run brings its own task to an end, if it was open and is done now. The flag tells whether a
fatal error was surfaced. -/
def ownEnd (execute : Context ρ ε → Ending α × Context ρ ε) (task : Nat) (w : World ρ ε) :
    List (Nat × Bool) :=
  let ran := w.runTask execute task
  if w.isDone task = false ∧ ran.2.isDone task = true then [(task, ran.1.surfacesFatal)] else []

/-- The ends that come about in a run; `inner` gives those in its routine. -/
def runEnds (execute : Context ρ ε → Ending α × Context ρ ε)
    (inner : Context ρ ε → List (Nat × Bool)) (task : Nat) (w : World ρ ε) : List (Nat × Bool) :=
  (w.entry task).elim [] inner ++ w.ownEnd execute task

end World

def endsTracer (execute : Context ρ ε → Ending Unit × Context ρ ε)
    (inner : Context ρ ε → List (Nat × Bool)) : Tracer ρ ε (Nat × Bool) where
  op
    | cx, .run task => cx.world.runEnds execute inner task
    | _, _ => []

def Script.executeEnds (enter : ρ → Script ρ ε) : Nat → Context ρ ε → List (Nat × Bool)
  | 0, _ => []
  | depth + 1, cx =>
    (enter cx.object).trace (endsTracer (execute enter depth) (executeEnds enter depth))
      (execute enter depth) (executeEnds enter depth) cx

namespace World

/-- Tasks that were done stay so, and the others that are done now are those of the ends, each of
them once. -/
structure Ends (w : World ρ ε) (ends : List (Nat × Bool)) (w' : World ρ ε) : Prop where
  kept : ∀ i, w.isDone i = true → w'.isDone i = true
  distinct : (ends.map Prod.fst).Nodup
  members : ∀ i, i ∈ ends.map Prod.fst ↔ w.isDone i = false ∧ w'.isDone i = true

theorem Ends.of_same {w w' : World ρ ε} (same : ∀ i, w'.isDone i = w.isDone i) : w.Ends [] w' where
  kept i done := (same i).trans done
  distinct := List.nodup_nil
  members i := by simp [same]

theorem Ends.of_tasks_eq {w w' : World ρ ε} (same : w'.tasks = w.tasks) : w.Ends [] w' :=
  .of_same fun i => isDone_congr same i

theorem Ends.congr {w w' v v' : World ρ ε} {ends : List (Nat × Bool)} (came : w.Ends ends w')
    (before : v.tasks = w.tasks) (after : v'.tasks = w'.tasks) : v.Ends ends v' where
  kept i := by
    rw [isDone_congr before, isDone_congr after]
    exact came.kept i
  distinct := came.distinct
  members i := by
    rw [isDone_congr before, isDone_congr after]
    exact came.members i

theorem Ends.trans {a b c : World ρ ε} {first later : List (Nat × Bool)} (one : a.Ends first b)
    (two : b.Ends later c) : a.Ends (first ++ later) c where
  kept i done := two.kept i (one.kept i done)
  distinct := by
    rw [List.map_append, List.nodup_append]
    refine ⟨one.distinct, two.distinct, ?_⟩
    rintro i before j after rfl
    have done := ((one.members i).mp before).2
    rw [((two.members i).mp after).1] at done
    cases done
  members i := by
    rw [List.map_append, List.mem_append, one.members, two.members]
    have kept := two.kept i
    have earlier := one.kept i
    revert kept earlier
    cases a.isDone i <;> cases b.isDone i <;> cases c.isDone i <;> simp

theorem updateTask_isDone {w : World ρ ε} {task : Nat} {change : Task ρ → Task ρ}
    (same : ∀ t, w.tasks[task]? = some t → (change t).isDone = t.isDone) (i : Nat) :
    (w.updateTask task change).isDone i = w.isDone i := by
  simp only [isDone, updateTask, List.getElem?_modify]
  cases found : w.tasks[i]? with
  | none => rfl
  | some t =>
    by_cases here : task = i
    · subst here
      simp [same t found]
    · simp [here]

theorem updateTask_isDone_of_ne {task i : Nat} (elsewhere : i ≠ task) (w : World ρ ε)
    (change : Task ρ → Task ρ) : (w.updateTask task change).isDone i = w.isDone i := by
  simp [isDone, updateTask, Ne.symm elsewhere]

theorem cancel_ends (w : World ρ ε) (task : Nat) (reason : CancelReason) :
    w.Ends [] (w.cancel task reason).2 := by
  refine .of_same (updateTask_isDone fun t _ => ?_)
  unfold Task.requestCancel
  split <;> rfl

theorem isReady_ends (w : World ρ ε) (task : Nat) : w.Ends [] (w.isReady task).2 :=
  .of_same (updateTask_isDone fun t _ => t.poll_isDone ..)

theorem spawn_ends (w : World ρ ε) (task : Nat) : w.Ends [] (w.spawn task) := by
  unfold spawn
  split
  · exact .of_tasks_eq rfl
  · exact .of_tasks_eq rfl

theorem Becomes.isDone_kept {w w' : World ρ ε} (becomes : w.Becomes w') (i : Nat)
    (done : w.isDone i = true) : w'.isDone i = true := by
  obtain ⟨t, found, ended⟩ := (Option.any_eq_true ..).mp done
  have state : t.state = .done := by simpa [Task.isDone_eq] using ended
  rw [isDone_of_found (becomes.keeps i t found state), ended]

theorem Ends.of_own {w w' : World ρ ε} {task : Nat} {done : Bool} (before : w.isDone task = done)
    (others : ∀ i ≠ task, w'.isDone i = w.isDone i)
    (kept : w.isDone task = true → w'.isDone task = true) (failed : Bool) :
    w.Ends (if done = false ∧ w'.isDone task = true then [(task, failed)] else []) w' := by
  subst before
  refine ⟨fun i done => ?_, by split <;> simp, fun i => ?_⟩
  · by_cases here : i = task
    · subst here
      exact kept done
    · rw [others i here]
      exact done
  · by_cases here : i = task
    · subst here
      split <;> simp_all
    · rw [others i here]
      split <;> simp [here]

end World

namespace Context

/-- A piece of routine code in which these ends come about. -/
def BringsAbout (code : Context ρ ε → α × Context ρ ε) (ends : Context ρ ε → List (Nat × Bool)) :
    Prop :=
  ∀ cx : Context ρ ε, cx.world.Sound → cx.world.Ends (ends cx) (code cx).2.world

theorem call_brings (t : Tracer ρ ε (Nat × Bool)) (silent : ∀ cx, t.leaving cx = [])
    {inner : Context ρ ε → List (Nat × Bool)} {body : Context ρ ε → Ending α × Context ρ ε}
    (brings : BringsAbout body inner) : BringsAbout (call body) (callTrace t inner body) := by
  intro cx sound
  rw [callTrace_silent t silent, call_world]
  exact brings { cx with frames := cx.frames.enter } sound

theorem invokeFrame_brings (t : Tracer ρ ε (Nat × Bool)) (silent : ∀ cx, t.leaving cx = [])
    {inner : Context ρ ε → List (Nat × Bool)} {execute : Context ρ ε → Ending Unit × Context ρ ε}
    (brings : BringsAbout execute inner) (given : ρ) :
    BringsAbout (invokeFrame execute given) (invokeFrameTrace t inner execute given) := by
  intro cx sound
  rw [invokeFrame_eq]
  unfold invokeFrameTrace
  split
  · exact .of_tasks_eq rfl
  · next target frames _ =>
    dsimp only
    rw [afterInvoked_world]
    exact call_brings t silent brings { cx with frames, object := target } sound

end Context

open Context

namespace World

theorem entry_isDone {w : World ρ ε} {task : Nat} {cx : Context ρ ε}
    (entered : w.entry task = some cx) :
    w.isDone task = false ∧ ∀ i, cx.world.isDone i = w.isDone i := by
  obtain ⟨t, found, -⟩ := Option.bind_eq_some_iff.mp entered
  have unfinished : t.isDone = false := not_done_of_entered entered found
  refine ⟨(isDone_of_found found).trans unfinished, fun i => ?_⟩
  rw [entry_world entered]
  refine updateTask_isDone (fun other same => ?_) i
  obtain rfl := Option.some.inj (found.symm.trans same)
  exact unfinished.symm

theorem runTask_unentered_isDone {execute : Context ρ ε → Ending α × Context ρ ε} {w : World ρ ε}
    {task : Nat} (unentered : w.entry task = none) {i : Nat} (elsewhere : i ≠ task) :
    (w.runTask execute task).2.isDone i = w.isDone i := by
  cases found : w.tasks[task]? with
  | none => simp only [runTask, found]
  | some t =>
    simp only [entry, found, Option.bind_some] at unentered
    simp only [runTask, found]
    split
    · rfl
    · exact updateTask_isDone_of_ne elsewhere ..
    · exact updateTask_isDone_of_ne elsewhere ..
    · next admission => simp [admission] at unentered

theorem runTask_ends {execute : Context ρ ε → Ending α × Context ρ ε}
    {inner : Context ρ ε → List (Nat × Bool)} (respects : Respects execute)
    (brings : BringsAbout execute inner) {w : World ρ ε} (sound : w.Sound) (task : Nat) :
    w.Ends (w.runEnds execute inner task) (w.runTask execute task).2 := by
  have kept := (runTask_settles respects sound task).1.isDone_kept task
  unfold runEnds ownEnd
  cases entered : w.entry task with
  | none =>
    exact .of_own rfl (fun i elsewhere => runTask_unentered_isDone entered elsewhere) kept _
  | some cx =>
    obtain ⟨unfinished, same⟩ := entry_isDone entered
    have started := entry_sound sound entered
    have during : w.Ends (inner cx) (execute cx).2.world :=
      (Ends.of_same same).trans (brings cx started)
    have flown : (execute cx).2.world.isDone task = false := by
      obtain ⟨-, t, found, running⟩ := entry_flight entered
      obtain ⟨t', found', step⟩ := (respects cx started).at_task found
      rw [isDone_of_found found']
      simp [Task.isDone_eq, step.running.mpr running]
    have others (i : Nat) (elsewhere : i ≠ task) :
        (w.runTask execute task).2.isDone i = (execute cx).2.world.isDone i := by
      rw [runTask_entered entered]
      exact updateTask_isDone_of_ne elsewhere ..
    exact during.trans (.of_own (flown.trans unfinished.symm) others (by simp [flown]) _)

end World

theorem Op.perform_brings {execute : Context ρ ε → Ending Unit × Context ρ ε}
    {inner : Context ρ ε → List (Nat × Bool)} (respects : Respects execute)
    (brings : BringsAbout execute inner) (op : Op ρ ε) :
    BringsAbout (fun cx => op.perform execute cx)
      fun cx => (endsTracer execute inner).op cx op := by
  intro cx sound
  cases op with
  | run task => exact World.runTask_ends respects brings sound task
  | cancel task reason => exact World.cancel_ends cx.world task reason
  | isReady task => exact World.isReady_ends cx.world task
  | spawn task => exact World.spawn_ends cx.world task
  | suspend => exact .of_tasks_eq (congrArg World.tasks (cx.suspend_world ..))
  | pause reason => exact .of_tasks_eq (congrArg World.tasks (cx.pause_world reason))
  | recoverDepth trace => exact .of_tasks_eq (cx.recoverDepth_tasks trace)
  | _ => exact .of_tasks_eq rfl

namespace Script

theorem exec_brings {execute : Context ρ ε → Ending Unit × Context ρ ε}
    {inner : Context ρ ε → List (Nat × Bool)} (respects : Respects execute)
    (brings : BringsAbout execute inner) (script : Script ρ ε) :
    BringsAbout (script.exec execute) (script.trace (endsTracer execute inner) execute inner) := by
  -- Done tasks stay done, so the ends of what comes later are added to those before.
  induction script with
  | done ending => exact fun cx _ => .of_tasks_eq rfl
  | act op next ih =>
    intro cx sound
    have performed := op.perform_brings respects brings cx sound
    exact performed.trans (ih _ _ (op.perform_respects respects cx sound).sound)
  | call body next bodyIh ih =>
    intro cx sound
    have called := call_brings (endsTracer execute inner) (fun _ => rfl) (bodyIh ()) cx sound
    have kept := call_respects (exec_respects respects (body ())) cx sound
    exact called.trans (ih _ _ kept.sound)
  | invoke object next ih =>
    intro cx sound
    have invoked := invokeFrame_brings (endsTracer execute inner) (fun _ => rfl) brings object
    have called := call_brings (endsTracer execute inner) (fun _ => rfl) invoked cx sound
    have kept := call_respects (invokeFrame_respects respects object) cx sound
    exact called.trans (ih _ _ kept.sound)

theorem execute_brings (enter : ρ → Script ρ ε) (depth : Nat) :
    BringsAbout (execute enter depth) (executeEnds enter depth) := by
  induction depth with
  | zero => exact fun cx _ => .of_tasks_eq rfl
  | succ depth ih =>
    exact fun cx sound => exec_brings (execute_respects enter depth) ih (enter cx.object) cx sound

end Script

def Dispatch.ends (enter : ρ → Script ρ ε) (depth : Nat) (d : Dispatch ρ ε) : List (Nat × Bool) :=
  if d.taken.isDone d.task then []
  else if d.answer then
    (d.taken.isReady d.task).2.runEnds (Script.execute enter depth)
      (Script.executeEnds enter depth) d.task
  else []

namespace World

variable {enter : ρ → Script ρ ε} {depth : Nat}

theorem dispatch_brings_ends (enter : ρ → Script ρ ε) (depth : Nat) {d : Dispatch ρ ε}
    (sound : d.taken.Sound) :
    d.taken.Ends (d.ends enter depth) (d.taken.dispatch (Script.execute enter depth) d.task).2 := by
  have asked := d.taken.isReady_ends d.task
  rw [dispatch_eq]
  unfold Dispatch.ends judge
  split
  · exact .of_tasks_eq rfl
  · dsimp only
    by_cases ready : d.answer = true
    · have ran := runTask_ends (Script.execute_respects enter depth)
        (Script.execute_brings enter depth) (isReady_becomes sound d.task).sound d.task
      have answered : (d.taken.isReady d.task).1 = true := ready
      rw [if_pos ready, if_pos answered]
      exact (asked.trans ran).congr rfl ((settle_tasks ..).trans (verdict_tasks ..))
    · have unanswered : ¬ (d.taken.isReady d.task).1 = true := ready
      rw [if_neg ready, if_neg unanswered]
      exact asked.congr rfl (settle_tasks ..)

theorem Turned.brings_ends {misses later : Nat} {v v' : World ρ ε} (sound : v.Sound)
    (turned : v.Turned (Script.execute enter depth) misses later v') :
    v.Ends (v.dispatches.flatMap (Dispatch.ends enter depth)) v' := by
  have dispatched {task : Nat} {taken : World ρ ε}
      (took : v.timedOut.2.take? = some (task, taken)) :
      v.Ends (v.dispatches.flatMap (Dispatch.ends enter depth))
        (taken.dispatch (Script.execute enter depth) task).2 := by
    obtain ⟨rest, -, same⟩ := take?_eq_some_iff.mp took
    have tasks : taken.tasks = v.tasks := by
      rw [same]
      exact v.timedOut_tasks
    have came := dispatch_brings_ends enter depth (d := ⟨task, taken⟩)
      (Becomes.of_tasks_eq sound tasks).sound
    rw [dispatches_of_take took, List.flatMap_singleton]
    exact came.congr tasks.symm rfl
  cases turned with
  | starved empty =>
    have nothing : v.dispatches = [] := by simp [dispatches, empty]
    rw [nothing]
    exact .of_tasks_eq v.timedOut_tasks
  | moved took | missed took => exact dispatched took
  | swept took => exact (dispatched took).congr rfl rfl

theorem Served.brings_ends {misses : Nat} {start v : World ρ ε} {log : List (Dispatch ρ ε)}
    (sound : start.Sound) (served : Served (Script.execute enter depth) start misses log v) :
    start.Ends (log.flatMap (Dispatch.ends enter depth)) v := by
  induction served with
  | begun => exact .of_tasks_eq rfl
  | next served goes ih =>
    obtain ⟨-, -, turned⟩ := turned_of_next goes
    rw [List.flatMap_append]
    exact ih.trans (turned.brings_ends (served.becomes sound).sound)

theorem runCurrentThread_brings_ends {turns : Nat} {start w' : World ρ ε} {report : SchedulerReport}
    (sound : start.Sound)
    (finished : start.runCurrentThread (Script.execute enter depth) turns = some (report, w')) :
    start.Ends ((loopLog (Script.execute enter depth) turns 0 start.beginRun).flatMap
      (Dispatch.ends enter depth)) w' := by
  obtain ⟨-, misses, last, served, stops⟩ := runCurrentThread_served finished
  refine (served.brings_ends sound).congr rfl ?_
  rcases stopped_cases stops with ⟨-, rfl⟩ | ⟨-, rfl⟩
  · rfl
  · exact last.timedOut_tasks

def serveEnds (w : World ρ ε) : SchedulerCall ρ ε → List (Nat × Bool)
  | .onTask (.run task enter depth) =>
    w.runEnds (Script.execute enter depth) (Script.executeEnds enter depth) task
  | .drive enter depth turns =>
    (loopLog (Script.execute enter depth) turns 0 w.beginRun).flatMap (Dispatch.ends enter depth)
  | _ => []

def historyEnds : World ρ ε → List (SchedulerCall ρ ε) → List (Nat × Bool)
  | _, [] => []
  | w, call :: rest => w.serveEnds call ++ (w.serve call).elim [] (historyEnds · rest)

theorem addTask_isDone (w : World ρ ε) (entry : ρ) (classifier i : Nat) :
    (w.addTask entry classifier).isDone i = w.isDone i := by
  rcases Nat.lt_trichotomy i w.tasks.length with old | new | beyond
  · simp only [isDone, addTask, List.getElem?_append_left old]
  · subst new
    simp [isDone, addTask, Task.isDone_eq]
  · have missing : w.tasks[i]? = none := List.getElem?_eq_none (Nat.le_of_lt beyond)
    have none : (w.addTask entry classifier).tasks[i]? = none :=
      List.getElem?_eq_none (by simp [addTask]; omega)
    simp only [isDone, missing, none]

theorem serve_brings_ends {w w' : World ρ ε} (sound : w.Sound) {call : SchedulerCall ρ ε}
    (served : w.serve call = some w') : w.Ends (w.serveEnds call) w' := by
  have created (entry : ρ) (classifier : Nat) : w.Ends [] (w.addTask entry classifier) :=
    .of_same fun i => w.addTask_isDone entry classifier i
  cases call with
  | onTask call =>
    cases served
    cases call with
    | create entry classifier => exact created entry classifier
    | run task enter depth =>
      exact runTask_ends (Script.execute_respects enter depth) (Script.execute_brings enter depth)
        sound task
    | cancel task reason => exact w.cancel_ends task reason
    | ask task => exact w.isReady_ends task
  | release latch =>
    cases served
    exact .of_tasks_eq rfl
  | openScheduler settings choice =>
    cases served
    exact .of_tasks_eq rfl
  | spawn task =>
    cases served
    exact w.spawn_ends task
  | spawnRoutine entry =>
    cases served
    exact (created entry w.scheduler.classifier).trans (spawn_ends ..)
  | drive enter depth turns =>
    obtain ⟨⟨report, _⟩, finished, rfl⟩ := Option.map_eq_some_iff.mp served
    exact runCurrentThread_brings_ends sound finished

theorem history_brings_ends {w past : World ρ ε} (idle : w.Idle) (balanced : w.scheduler.Balanced)
    {calls : List (SchedulerCall ρ ε)} (served : w.serveAll calls = some past) :
    w.Ends (w.historyEnds calls) past := by
  induction calls generalizing w with
  | nil =>
    cases served
    exact .of_tasks_eq rfl
  | cons call rest ih =>
    obtain ⟨v, first, later⟩ := Option.bind_eq_some_iff.mp served
    obtain ⟨idle', balanced'⟩ := serve_settles idle balanced call first
    rw [historyEnds, first, Option.elim_some]
    exact (serve_brings_ends idle.sound first).trans (ih idle' balanced' later)

end World

end ResumableTasks
