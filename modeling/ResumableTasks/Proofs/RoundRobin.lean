import Mathlib.Data.List.Rotate
import ResumableTasks.Proofs.SchedulerCompletion
/-!
A scheduler serves its tasks in turn. Each turn takes the first entry of the queue and drops it or
puts it back at the end, so the queue of a run is at all times a rotation of what was queued first,
less what was dropped, and the turns between two turns of one task go through all the others. Beside
the loop stands the log of its dispatches, each with the world from which its entry was taken.
-/
namespace ResumableTasks

variable {ρ ε α : Type}

namespace RunQueue

/-- What is left of a queue after some turns, if these can be its turns: each has the first entry,
and drops it or puts it back at the end. -/
def advance : List Nat → List (Nat × Bool) → Option (List Nat)
  | entries, [] => some entries
  | [], _ :: _ => none
  | head :: rest, (task, drops) :: turns =>
    if head = task then advance (if drops then rest else rest ++ [head]) turns else none

def dropped (turns : List (Nat × Bool)) : List Nat := (turns.filter Prod.snd).map Prod.fst

variable {entries left : List Nat} {turns : List (Nat × Bool)}

theorem advance_nil (entries : List Nat) : advance entries [] = some entries := by
  cases entries <;> rfl

theorem advance_cons {task : Nat} {drops : Bool}
    (advanced : advance entries ((task, drops) :: turns) = some left) :
    ∃ rest, entries = task :: rest ∧
      advance (if drops then rest else rest ++ [task]) turns = some left := by
  cases entries with
  | nil => cases advanced
  | cons head rest =>
    simp only [advance] at advanced
    split at advanced
    · next same => exact ⟨rest, same ▸ rfl, same ▸ advanced⟩
    · cases advanced

theorem advance_append (entries : List Nat) (turns later : List (Nat × Bool)) :
    advance entries (turns ++ later) = (advance entries turns).bind (advance · later) := by
  induction turns generalizing entries with
  | nil => rw [List.nil_append, advance_nil, Option.bind_some]
  | cons turn rest ih =>
    cases entries with
    | nil => rfl
    | cons head waiting =>
      simp only [List.cons_append, advance]
      split
      · exact ih _
      · rfl

theorem mem_of_advance (advanced : advance entries turns = some left) :
    ∀ turn ∈ turns, turn.1 ∈ entries := by
  induction turns generalizing entries with
  | nil => exact fun turn member => absurd member List.not_mem_nil
  | cons first later ih =>
    intro turn member
    obtain ⟨rest, rfl, after⟩ := advance_cons advanced
    rcases List.mem_cons.mp member with rfl | behind
    · exact List.mem_cons_self
    · have waiting := ih after turn behind
      split at waiting
      · exact List.mem_cons_of_mem _ waiting
      · simpa [or_comm] using waiting

theorem advance_isRotated (distinct : entries.Nodup)
    (advanced : advance entries turns = some left) :
    left ~r entries.filter (· ∉ dropped turns) := by
  induction turns generalizing entries with
  | nil =>
    obtain rfl := Option.some.inj advanced
    have all : entries.filter (· ∉ dropped []) = entries := by simp [dropped]
    rw [all]
  | cons turn later ih =>
    obtain ⟨task, drops⟩ := turn
    obtain ⟨rest, rfl, after⟩ := advance_cons advanced
    obtain ⟨absent, others⟩ := List.nodup_cons.mp distinct
    cases drops with
    | true =>
      have same : (task :: rest).filter (· ∉ dropped ((task, true) :: later)) =
          rest.filter (· ∉ dropped later) := by
        have gone : dropped ((task, true) :: later) = task :: dropped later := rfl
        rw [gone, List.filter_cons_of_neg (by simp)]
        refine List.filter_congr fun other member => ?_
        have elsewhere : other ≠ task := fun here => absent (here ▸ member)
        simp [elsewhere]
      rw [same]
      exact ih others after
    | false =>
      have back : (rest ++ [task]).Nodup := (List.perm_append_singleton task rest).nodup_iff.mpr
        distinct
      refine (ih back after).trans ?_
      have kept : (task :: rest).filter (· ∉ dropped ((task, false) :: later)) =
          [task].filter (· ∉ dropped later) ++ rest.filter (· ∉ dropped later) :=
        List.filter_append [task] rest
      rw [kept, List.filter_append]
      exact List.isRotated_append

theorem advance_until {task : Nat} {front back rest : List Nat}
    (advanced : advance (front ++ task :: back) turns = some (task :: rest))
    (absent : task ∉ front) (before : ∀ turn ∈ turns, turn.1 ≠ task) :
    turns.map Prod.fst = front := by
  induction turns generalizing front back with
  | nil =>
    have queue := Option.some.inj advanced
    cases front with
    | nil => rfl
    | cons head waiting =>
      obtain rfl := List.head_eq_of_cons_eq queue
      exact absurd List.mem_cons_self absent
  | cons turn later ih =>
    obtain ⟨other, drops⟩ := turn
    obtain ⟨waiting, queue, after⟩ := advance_cons advanced
    have elsewhere : other ≠ task := before (other, drops) List.mem_cons_self
    cases front with
    | nil => exact absurd (List.head_eq_of_cons_eq queue).symm elsewhere
    | cons head front =>
      obtain ⟨rfl, rfl⟩ := List.cons.inj queue
      have further : ∃ back', advance (front ++ task :: back') later = some (task :: rest) := by
        cases drops with
        | true => exact ⟨back, after⟩
        | false => exact ⟨back ++ [head], by simpa using after⟩
      obtain ⟨back', after⟩ := further
      have behind := ih after (fun member => absent (List.mem_cons_of_mem head member))
        fun turn member => before turn (List.mem_cons_of_mem _ member)
      rw [List.map_cons, behind]

theorem advance_lap (distinct : entries.Nodup) {before between after : List (Nat × Bool)}
    {task : Nat} {first second : Bool}
    (advanced : advance entries (before ++ (task, first) :: (between ++ (task, second) :: after)) =
      some left)
    (consecutive : ∀ turn ∈ between, turn.1 ≠ task) {other : Nat} (member : other ∈ entries)
    (elsewhere : other ≠ task) (live : other ∉ dropped before) :
    (between.map Prod.fst).count other = 1 := by
  rw [advance_append] at advanced
  obtain ⟨queue, reached, taken⟩ := Option.bind_eq_some_iff.mp advanced
  obtain ⟨rest, rfl, onward⟩ := advance_cons taken
  have rotated := advance_isRotated distinct reached
  obtain ⟨absent, others⟩ := List.nodup_cons.mp (rotated.nodup_iff.mpr (distinct.filter _))
  cases first with
  | true =>
    -- A task that is dropped has no further turn.
    have again := mem_of_advance onward (task, second)
      (List.mem_append_right _ List.mem_cons_self)
    exact absurd again absent
  | false =>
    rw [advance_append] at onward
    obtain ⟨queue, lapped, taken⟩ := Option.bind_eq_some_iff.mp onward
    obtain ⟨behind, rfl, -⟩ := advance_cons taken
    -- Until the task has its turn again, each of those behind it has one.
    have lap : between.map Prod.fst = rest := advance_until lapped absent consecutive
    have waiting : other ∈ task :: rest :=
      rotated.mem_iff.mpr (List.mem_filter.mpr ⟨member, by simpa using live⟩)
    rw [lap]
    exact List.count_eq_one_of_mem others ((List.mem_cons.mp waiting).resolve_left elsewhere)

end RunQueue

def Op.Unspawning : Op ρ ε → Prop
  | .spawn _ => False
  | _ => True

def Script.Unspawning : Script ρ ε → Prop
  | .done _ => True
  | .act op next => op.Unspawning ∧ ∀ reply, (next reply).Unspawning
  | .call body next => (body ()).Unspawning ∧ ∀ reply, (next reply).Unspawning
  | .invoke _ next => ∀ reply, (next reply).Unspawning

section

variable {inner : Context ρ ε → List Nat} (nothing : ∀ cx, inner cx = [])

include nothing

theorem World.runSpawned_eq_nil (task : Nat) (w : World ρ ε) : w.runSpawned inner task = [] := by
  unfold runSpawned
  cases w.entry task with
  | none => rfl
  | some cx => exact nothing cx

theorem Op.spawned_eq_nil {op : Op ρ ε} (unspawning : op.Unspawning) (cx : Context ρ ε) :
    op.spawned inner cx = [] := by
  cases op with
  | spawn => exact unspawning.elim
  | run task => exact World.runSpawned_eq_nil nothing task cx.world
  | _ => rfl

theorem Context.invokeFrameSpawned_eq_nil (given : ρ) (cx : Context ρ ε) :
    cx.invokeFrameSpawned inner given = [] := by
  unfold invokeFrameSpawned
  split
  · rfl
  · exact nothing _

theorem Script.spawned_eq_nil (execute : Context ρ ε → Ending Unit × Context ρ ε)
    (script : Script ρ ε) (unspawning : script.Unspawning) (cx : Context ρ ε) :
    script.spawned execute inner cx = [] := by
  induction script generalizing cx with
  | done ending => rfl
  | act op next ih =>
    obtain ⟨own, later⟩ := unspawning
    rw [spawned, op.spawned_eq_nil nothing own, ih _ (later _), List.append_nil]
  | call body next bodyIh ih =>
    obtain ⟨own, later⟩ := unspawning
    rw [spawned, bodyIh () own, ih _ (later _), List.append_nil]
  | invoke object next ih =>
    rw [spawned, Context.invokeFrameSpawned_eq_nil nothing, ih _ (unspawning _), List.append_nil]

end

theorem Script.executeSpawned_eq_nil {enter : ρ → Script ρ ε}
    (unspawning : ∀ r, (enter r).Unspawning) (depth : Nat) (cx : Context ρ ε) :
    executeSpawned enter depth cx = [] := by
  induction depth generalizing cx with
  | zero => rfl
  | succ depth ih => exact spawned_eq_nil ih _ (enter cx.object) (unspawning cx.object) cx

namespace World

def judge (execute : Context ρ ε → Ending α × Context ρ ε) (task : Nat) (w : World ρ ε) :
    Verdict × World ρ ε :=
  if w.isDone task then (.retired false, w)
  else
    let asked := w.isReady task
    if asked.1 then
      let ran := asked.2.runTask execute task
      ran.2.verdict task ran.1
    else (.putBack false, asked.2)

theorem dispatch_eq (execute : Context ρ ε → Ending α × Context ρ ε) (task : Nat)
    (w : World ρ ε) :
    w.dispatch execute task = (w.judge execute task).2.settle task (w.judge execute task).1 := by
  simp only [dispatch, judge]
  split
  · rfl
  · split <;> rfl

theorem judge_queue {enter : ρ → Script ρ ε} (unspawning : ∀ r, (enter r).Unspawning)
    (depth task : Nat) (w : World ρ ε) :
    (w.judge (Script.execute enter depth) task).2.scheduler.queue = w.scheduler.queue := by
  simp only [judge]
  split
  · rfl
  · split
    · have ran := runTask_scheduler (Script.execute_spawns enter depth) task (w.isReady task).2
      rw [runSpawned_eq_nil (Script.executeSpawned_eq_nil unspawning depth)] at ran
      obtain ⟨lastProgress, decided⟩ := verdict_scheduler task
        ((w.isReady task).2.runTask (Script.execute enter depth) task).2
        ((w.isReady task).2.runTask (Script.execute enter depth) task).1
      rw [decided, ran]
      rfl
    · rfl

theorem settle_queue (task : Nat) (w : World ρ ε) (verdict : Verdict) :
    (w.settle task verdict).2.scheduler.queue.entries =
      if verdict.retires then w.scheduler.queue.entries
      else w.scheduler.queue.entries ++ [task] := by
  rcases verdict with moved | (_ | _) <;> rfl

end World

structure Dispatch (ρ ε : Type) where
  task : Nat
  taken : World ρ ε

namespace Dispatch

def retires (execute : Context ρ ε → Ending α × Context ρ ε) (d : Dispatch ρ ε) : Bool :=
  (d.taken.judge execute d.task).1.retires

def turn (execute : Context ρ ε → Ending α × Context ρ ε) (d : Dispatch ρ ε) : Nat × Bool :=
  (d.task, d.retires execute)

end Dispatch

def retiredIn (execute : Context ρ ε → Ending α × Context ρ ε) (log : List (Dispatch ρ ε)) :
    List Nat :=
  (log.filter (Dispatch.retires execute)).map Dispatch.task

theorem dropped_map_turn (execute : Context ρ ε → Ending α × Context ρ ε)
    (log : List (Dispatch ρ ε)) :
    RunQueue.dropped (log.map (Dispatch.turn execute)) = retiredIn execute log := by
  rw [RunQueue.dropped, List.filter_map, List.map_map]
  rfl

namespace World

def dispatches (w : World ρ ε) : List (Dispatch ρ ε) :=
  w.timedOut.2.take?.toList.map fun taken => ⟨taken.1, taken.2⟩

/-- The heads of the loop that a run comes to, each with the count of misses and the log of the
dispatches since the run began. -/
inductive Served (execute : Context ρ ε → Ending α × Context ρ ε) (start : World ρ ε) :
    Nat → List (Dispatch ρ ε) → World ρ ε → Prop
  | begun : Served execute start 0 [] start.beginRun
  | next {misses later : Nat} {log : List (Dispatch ρ ε)} {v v' : World ρ ε}
      (served : Served execute start misses log v)
      (goes : v.turn execute misses = .next later v') :
      Served execute start later (log ++ v.dispatches) v'

def headAfter (execute : Context ρ ε → Ending α × Context ρ ε) (start : World ρ ε) :
    Nat → Option (Nat × List (Dispatch ρ ε) × World ρ ε)
  | 0 => some (0, [], start.beginRun)
  | turns + 1 => (headAfter execute start turns).bind fun (misses, log, v) =>
    match v.turn execute misses with
    | .stopped _ => none
    | .next later v' => some (later, log ++ v.dispatches, v')

theorem served_iff {execute : Context ρ ε → Ending α × Context ρ ε} {start v : World ρ ε}
    {misses : Nat} {log : List (Dispatch ρ ε)} :
    Served execute start misses log v ↔
      ∃ turns, headAfter execute start turns = some (misses, log, v) := by
  constructor
  · intro served
    induction served with
    | begun => exact ⟨0, rfl⟩
    | next _ goes ih =>
      obtain ⟨turns, reached⟩ := ih
      refine ⟨turns + 1, ?_⟩
      simp only [headAfter, reached, Option.bind_some, goes]
  · rintro ⟨turns, reached⟩
    induction turns generalizing misses log v with
    | zero =>
      cases reached
      exact .begun
    | succ turns ih =>
      obtain ⟨⟨before, earlier, w⟩, first, onward⟩ := Option.bind_eq_some_iff.mp reached
      dsimp only at onward
      cases goes : w.turn execute before with
      | stopped _ => simp [goes] at onward
      | next later v' =>
        simp only [goes] at onward
        cases onward
        exact .next (ih first) goes

theorem Turned.advances {enter : ρ → Script ρ ε} (unspawning : ∀ r, (enter r).Unspawning)
    {depth misses later : Nat} {v v' : World ρ ε}
    (turned : v.Turned (Script.execute enter depth) misses later v') :
    RunQueue.advance v.scheduler.queue.entries
        (v.dispatches.map (Dispatch.turn (Script.execute enter depth))) =
      some v'.scheduler.queue.entries := by
  have served {task : Nat} {taken : World ρ ε} (took : v.timedOut.2.take? = some (task, taken)) :
      RunQueue.advance v.scheduler.queue.entries
          (v.dispatches.map (Dispatch.turn (Script.execute enter depth))) =
        some (taken.dispatch (Script.execute enter depth) task).2.scheduler.queue.entries := by
    obtain ⟨rest, queued, left⟩ := take?_eq_some_iff.mp took
    rw [timedOut_scheduler] at queued
    have waiting : taken.scheduler.queue.entries = rest := by rw [left]; rfl
    rw [dispatch_eq, settle_queue, judge_queue unspawning, waiting, queued]
    simp [dispatches, took, RunQueue.advance, Dispatch.turn, Dispatch.retires]
  cases turned with
  | starved empty =>
    have same : v.timedOut.2.sleep.scheduler = v.scheduler := v.timedOut_scheduler
    simp only [dispatches, empty, Option.toList_none, List.map_nil, same]
    exact RunQueue.advance_nil _
  | moved took | swept took | missed took => exact served took

theorem Served.advances {enter : ρ → Script ρ ε} (unspawning : ∀ r, (enter r).Unspawning)
    {depth misses : Nat} {start v : World ρ ε} {log : List (Dispatch ρ ε)}
    (served : Served (Script.execute enter depth) start misses log v) :
    RunQueue.advance start.scheduler.queue.entries
        (log.map (Dispatch.turn (Script.execute enter depth))) =
      some v.scheduler.queue.entries := by
  induction served with
  | begun => exact RunQueue.advance_nil _
  | next _ goes ih =>
    obtain ⟨-, -, turned⟩ := turned_of_next goes
    rw [List.map_append, RunQueue.advance_append, ih, Option.bind_some]
    exact turned.advances unspawning

theorem Served.becomes {enter : ρ → Script ρ ε} {depth misses : Nat} {start v : World ρ ε}
    {log : List (Dispatch ρ ε)} (sound : start.Sound)
    (served : Served (Script.execute enter depth) start misses log v) : start.Becomes v := by
  induction served with
  | begun => exact Becomes.of_tasks_eq sound rfl
  | @next _ _ _ v v' _ goes ih =>
    obtain ⟨-, -, turned⟩ := turned_of_next goes
    have checked : start.Becomes v.timedOut.2 :=
      ih.trans (Becomes.of_tasks_eq ih.sound v.timedOut_tasks)
    have dispatched {task : Nat} {taken : World ρ ε}
        (took : v.timedOut.2.take? = some (task, taken)) :
        start.Becomes (taken.dispatch (Script.execute enter depth) task).2 := by
      obtain ⟨rest, -, same⟩ := take?_eq_some_iff.mp took
      have popped : start.Becomes taken :=
        checked.trans (Becomes.of_tasks_eq checked.sound (by rw [same]; rfl))
      exact popped.trans
        (dispatch_becomes (Script.execute_respects enter depth) popped.sound task)
    cases turned with
    | starved empty => exact checked.trans (Becomes.of_tasks_eq checked.sound rfl)
    | moved took | missed took => exact dispatched took
    | swept took =>
      exact (dispatched took).trans (Becomes.of_tasks_eq (dispatched took).sound rfl)

theorem Served.origin {execute : Context ρ ε → Ending α × Context ρ ε} {misses : Nat}
    {start v : World ρ ε} {log : List (Dispatch ρ ε)} (served : Served execute start misses log v)
    {d : Dispatch ρ ε} (member : d ∈ log) :
    ∃ misses log v, Served execute start misses log v ∧
      v.timedOut.2.take? = some (d.task, d.taken) := by
  induction served with
  | begun => cases member
  | next served _ ih =>
    rcases List.mem_append.mp member with earlier | own
    · exact ih earlier
    · obtain ⟨taken, took, rfl⟩ := List.mem_map.mp own
      exact ⟨_, _, _, served, Option.mem_toList.mp took⟩

def reenter (execute : Context ρ ε → Ending α × Context ρ ε) (task : Nat) (w : World ρ ε) :
    Bool × World ρ ε :=
  let ran := w.runTask execute task
  let decided := ran.2.verdict task ran.1
  decided.2.settle task decided.1

end World

/-- A task that can go on when it is asked: it is new, a cancellation is pending, it waits on
nothing, or the condition that it waits on answers so. -/
def Task.MayGoOn (latches : List Bool) (now : Nat) (t : Task ρ) : Prop :=
  t.state = .new ∨ t.cancel ≠ none ∨ t.reason = none ∨
    ∃ r, t.reason = some r ∧ (r.poll latches now t.id).1 = true

theorem Task.poll_iff {t : Task ρ} (idle : t.state ≠ .running) (live : t.isDone = false)
    (latches : List Bool) (now : Nat) :
    (t.poll latches now).1 = true ↔ t.MayGoOn latches now := by
  cases state : t.state with
  | running => exact absurd state idle
  | done => simp [isDone_eq, state] at live
  | new => simp [poll, MayGoOn, state]
  | suspended =>
    cases cancel : t.cancel with
    | some reason => simp [poll, MayGoOn, state, cancel, isCancelRequested]
    | none =>
      cases reason : t.reason with
      | none => simp [poll, MayGoOn, state, cancel, isCancelRequested, reason]
      | some r => simp [poll, MayGoOn, state, cancel, isCancelRequested, reason]

/-- What a dispatch does with its task: it drops one that is done, runs one that can go on, and puts
any other back. A suspended task that is not cancelled is asked for its condition once; nothing else
of it changes before it is run or put back. -/
structure Dispatch.Attends (execute : Context ρ ε → Ending α × Context ρ ε) (d : Dispatch ρ ε)
    (t : Task ρ) : Prop where
  dropped : t.isDone = true →
    d.taken.dispatch execute d.task = (true, d.taken.updateScheduler (·.retire false))
  reentered : t.isDone = false → t.MayGoOn d.taken.latches d.taken.readClock.1 →
    d.taken.dispatch execute d.task = (d.taken.isReady d.task).2.reenter execute d.task
  requeued : t.isDone = false → ¬ t.MayGoOn d.taken.latches d.taken.readClock.1 →
    d.taken.dispatch execute d.task =
      (false, (d.taken.isReady d.task).2.updateScheduler (·.enqueue d.task))
  polled : t.state = .suspended → t.cancel = none → ∀ r, t.reason = some r →
    let answered := r.poll d.taken.latches d.taken.readClock.1 t.id
    d.taken.isReady d.task = (answered.1,
      d.taken.readClock.2.updateTask d.task ({ · with reason := some answered.2 }))

theorem Dispatch.attends (execute : Context ρ ε → Ending α × Context ρ ε) {d : Dispatch ρ ε}
    {t : Task ρ} (found : d.taken.tasks[d.task]? = some t) (idle : t.state ≠ .running) :
    d.Attends execute t := by
  have done : d.taken.isDone d.task = t.isDone := by simp [World.isDone, found]
  have ready : (d.taken.isReady d.task).1 = (t.poll d.taken.latches d.taken.readClock.1).1 := by
    simp [World.isReady, found]
  constructor
  · intro ended
    simp only [World.dispatch, done, ended, ↓reduceIte]
    rfl
  · intro live going
    have goes := (t.poll_iff idle live _ _).mpr going
    simp only [World.dispatch, done, live, ready, goes, Bool.false_eq_true, ↓reduceIte]
    rfl
  · intro live waits
    have stays := (t.poll_iff idle live _ _).not.mpr waits
    simp only [World.dispatch, done, live, ready, stays, Bool.false_eq_true, ↓reduceIte]
    rfl
  · intro suspended uncancelled r waits answered
    have polled : t.poll d.taken.latches d.taken.readClock.1 =
        (answered.1, { t with reason := some answered.2 }) := by
      simp [Task.poll, suspended, Task.isCancelRequested, uncancelled, waits, answered]
    have unread : d.taken.readClock.2.tasks[d.task]? = some t := found
    refine Prod.ext (by rw [ready, polled]) ?_
    exact World.updateTask_congr unread (congrArg Prod.snd polled)

namespace World

theorem Served.found {enter : ρ → Script ρ ε} {depth misses : Nat} {start v : World ρ ε}
    {log : List (Dispatch ρ ε)} (idle : start.Idle)
    (served : Served (Script.execute enter depth) start misses log v) {d : Dispatch ρ ε}
    (member : d ∈ log) {t : Task ρ} (given : start.tasks[d.task]? = some t) :
    ∃ t', d.taken.tasks[d.task]? = some t' ∧ t'.state ≠ .running := by
  obtain ⟨_, _, v, head, took⟩ := served.origin member
  obtain ⟨rest, -, taken⟩ := take?_eq_some_iff.mp took
  have same : d.taken.tasks = v.tasks := by
    rw [taken]
    exact v.timedOut_tasks
  have becomes := head.becomes idle.sound
  obtain ⟨t', found, -⟩ := becomes.at_task given
  exact ⟨t', same ▸ found, (becomes.idle idle d.task t' found).not_running⟩

/-- After every history a scheduler serves the tasks that it is given in turn, if each is given once
and their routines give it none. At each head of the loop the queue is a rotation of the tasks as
they were given, less those that were retired. Between two consecutive dispatches of a task each
other one that was not retired before has exactly one. And each dispatch finds its task and attends
to it. -/
theorem tasks_are_served_in_turn (w : World ρ ε) (settings : Settings) (choice : ClassifierChoice)
    (calls : List (SchedulerCall ρ ε)) {past : World ρ ε}
    (served : ({ w with tasks := [] }.openScheduler settings choice).serveAll calls = some past)
    (empty : past.scheduler.queue.entries = []) {order : List Nat} (distinct : order.Nodup)
    (given : ∀ i ∈ order, ∃ t, past.tasks[i]? = some t ∧ t.isDone = false)
    {enter : ρ → Script ρ ε} (unspawning : ∀ r, (enter r).Unspawning) (depth : Nat) :
    let execute := Script.execute enter depth
    ∀ misses log v, Served execute (order.foldl spawn past) misses log v →
      v.scheduler.queue.entries ~r order.filter (· ∉ retiredIn execute log) ∧
      (∀ before first between second after, first.task = second.task →
        log = before ++ first :: (between ++ second :: after) →
        (∀ d ∈ between, d.task ≠ first.task) →
        ∀ other ∈ order, other ≠ first.task → other ∉ retiredIn execute before →
          (between.map Dispatch.task).count other = 1) ∧
      ∀ d ∈ log, ∃ t, d.taken.tasks[d.task]? = some t ∧ d.Attends execute t := by
  intro execute misses log v head
  have opened : ({ w with tasks := [] }.openScheduler settings choice).Idle := idle_of_empty w
  obtain ⟨idle, -⟩ := serveAll_settles opened rfl calls served
  have start : order.foldl spawn past = past.updateScheduler (·.spawnAll order) := by
    have all : order.filter (fun i => !past.isDone i) = order := by
      refine List.filter_eq_self.mpr fun i member => ?_
      obtain ⟨t, found, live⟩ := given i member
      simp [isDone, found, live]
    rw [foldl_spawn, all]
  rw [start] at head
  have advanced : RunQueue.advance order (log.map (Dispatch.turn execute)) =
      some v.scheduler.queue.entries := by
    have queued : (past.updateScheduler (·.spawnAll order)).scheduler.queue.entries = order := by
      simp [updateScheduler, Scheduler.spawnAll_eq, empty]
    rw [← head.advances unspawning, queued]
  refine ⟨?_, ?_, ?_⟩
  · rw [← dropped_map_turn]
    exact RunQueue.advance_isRotated distinct advanced
  · rintro before first between second after same rfl consecutive other member elsewhere live
    have again : second.turn execute = (first.task, second.retires execute) := by rw [same]; rfl
    rw [List.map_append, List.map_cons, List.map_append, List.map_cons, again] at advanced
    rw [← dropped_map_turn] at live
    have others : ∀ turn ∈ between.map (Dispatch.turn execute), turn.1 ≠ first.task := by
      intro turn member
      obtain ⟨d, behind, rfl⟩ := List.mem_map.mp member
      exact consecutive d behind
    have lap := RunQueue.advance_lap distinct advanced others member elsewhere live
    rwa [List.map_map] at lap
  · intro d member
    have queued := RunQueue.mem_of_advance advanced (d.turn execute)
      (List.mem_map.mpr ⟨d, member, rfl⟩)
    obtain ⟨t, given, -⟩ := given d.task queued
    have settled : (past.updateScheduler (·.spawnAll order)).Idle := idle
    obtain ⟨t', found, state⟩ := head.found settled member given
    exact ⟨t', found, Dispatch.attends execute found state⟩

end World

def Script.yieldsOnce : Script Unit Unit :=
  .act (.pause .yield) fun
    | .returned (.paused suspension) =>
      .act (.suspend suspension 1 .unit) fun _ => .done (.unwound .pause)
    | _ => .done (.returned .unit)

theorem Script.yieldsOnce_unspawning : yieldsOnce.Unspawning := by
  refine ⟨trivial, fun reply => ?_⟩
  rcases reply with (_ | suspension) | unwind | payload
  · trivial
  · exact ⟨trivial, fun _ => trivial⟩
  · trivial
  · trivial

namespace World

def ofTwo : World Unit Unit :=
  ((({ scheduler := default } : World Unit Unit).openScheduler (.standard 1) (.given 0)).addTask
    () 0).addTask () 0

theorem two_tasks_are_served_in_turn :
    let execute := Script.execute (fun _ : Unit => Script.yieldsOnce) 1
    ∃ first other second misses v,
      Served execute ([1, 0].foldl spawn ofTwo) misses [first, other, second] v ∧
      first.task = 1 ∧ second.task = 1 ∧ ([other].map Dispatch.task).count 0 = 1 := by
  intro execute
  have evaluated : (headAfter execute ([1, 0].foldl spawn ofTwo) 3).map
      (fun head => head.2.1.map Dispatch.task) = some [1, 0, 1] := by
    decide +kernel
  obtain ⟨⟨misses, log, v⟩, reached, tasks⟩ := Option.map_eq_some_iff.mp evaluated
  have head := served_iff.mpr ⟨3, reached⟩
  obtain ⟨first, rest, rfl, own, tasks⟩ := List.map_eq_cons_iff.mp tasks
  obtain ⟨other, rest, rfl, elsewhere, tasks⟩ := List.map_eq_cons_iff.mp tasks
  obtain ⟨second, rest, rfl, again, tasks⟩ := List.map_eq_cons_iff.mp tasks
  obtain rfl := List.map_eq_nil_iff.mp tasks
  have given : ∀ i ∈ [1, 0], ∃ t, ofTwo.tasks[i]? = some t ∧ t.isDone = false := by
    intro i member
    simp only [List.mem_cons, List.not_mem_nil, or_false] at member
    rcases member with rfl | rfl <;> exact ⟨_, rfl, rfl⟩
  obtain ⟨-, laps, -⟩ := tasks_are_served_in_turn { scheduler := default } (.standard 1) (.given 0)
    [.onTask (.create () 0), .onTask (.create () 0)] rfl rfl (by decide) given
    (fun _ => Script.yieldsOnce_unspawning) 1 misses _ v head
  refine ⟨first, other, second, misses, v, head, own, again, ?_⟩
  refine laps [] first [other] second [] (own.trans again.symm) rfl ?_ 0 (by decide) ?_ ?_
  · simp [own, elsewhere]
  · simp [own]
  · simp [retiredIn]

end World

namespace Script

def suspendsBare : Script Unit Unit :=
  .act (.frameStep (.capture 1 (.value .unit))) fun _ => .done (.unwound .pause)

def resumesBare : Script Unit Unit :=
  .call (fun _ => .done (.returned .unit)) fun _ => .done (.returned .unit)

end Script

namespace World

def ofBare : World Unit Unit :=
  ((({ scheduler := default } : World Unit Unit).openScheduler (.standard 1) (.given 0)).answerAll
    [.create () 0, .run 0 (fun _ => Script.suspendsBare) 1]).2.spawn 0

/-- A suspended task may have no condition. No question is asked then, and the task is run. -/
theorem unconditioned_task_is_run_unasked :
    let execute := Script.execute (fun _ : Unit => Script.resumesBare) 1
    ∃ misses d v t, Served execute ofBare misses [d] v ∧ d.taken.tasks[d.task]? = some t ∧
      t.state = .suspended ∧ t.cancel = none ∧ t.reason = none ∧
      d.taken.dispatch execute d.task = (d.taken.isReady d.task).2.reenter execute d.task ∧
      v.scheduler.queue.entries = [] ∧ v.tasks[d.task]?.map Task.state = some .done := by
  intro execute
  have evaluated : (headAfter execute ofBare 1).map (fun head =>
      (head.2.1.map fun d => (d.taken.tasks[d.task]?.map fun t =>
          (t.state, t.cancel.isNone, t.reason.isNone), head.2.2.tasks[d.task]?.map Task.state),
        head.2.2.scheduler.queue.entries)) =
      some ([(some (.suspended, true, true), some .done)], []) := by
    rfl
  obtain ⟨⟨misses, log, v⟩, reached, seen⟩ := Option.map_eq_some_iff.mp evaluated
  have head := served_iff.mpr ⟨1, reached⟩
  obtain ⟨tasks, queue⟩ := Prod.mk.inj seen
  obtain ⟨d, rest, rfl, own, nothing⟩ := List.map_eq_cons_iff.mp tasks
  obtain rfl := List.map_eq_nil_iff.mp nothing
  obtain ⟨before, after⟩ := Prod.mk.inj own
  obtain ⟨t, found, state⟩ := Option.map_eq_some_iff.mp before
  simp only [Prod.mk.injEq, Option.isNone_iff_eq_none] at state
  obtain ⟨suspended, uncancelled, unconditioned⟩ := state
  have attended := Dispatch.attends execute found (by simp [suspended])
  have live : t.isDone = false := by simp [Task.isDone, TaskState.isTerminal, suspended]
  exact ⟨misses, d, v, t, head, found, suspended, uncancelled, unconditioned,
    attended.reentered live (.inr (.inr (.inl unconditioned))), queue, after⟩

end World

end ResumableTasks
