import Mathlib.Algebra.Order.BigOperators.Group.List
import Mathlib.Algebra.Order.Ring.Nat
import ResumableTasks.Proofs.ConservedEntries
import ResumableTasks.Proofs.TaskCourse
/-!
A scheduler comes to the end of its tasks if each of them comes to its end by itself, and each ends
as it would by itself. Every turn takes one task a step further along its own course, or finds that
it is not due. Such turns cannot go on for ever: after as many as there are tasks in the queue the
scheduler pauses, and the time left until the tasks are due gets shorter.
-/
namespace ResumableTasks

variable {ρ ε α : Type}

def Verdict.retires : Verdict → Bool
  | .putBack _ => false
  | .retired _ => true

namespace World

open Context

variable {execute : Context ρ ε → Ending α × Context ρ ε} {start w : World ρ ε} {i : Nat}

theorem verdict_spares (i task : Nat) (w : World ρ ε) (answer : RunAnswer) :
    Spares i w (w.verdict task answer).2 := by
  rcases w.verdict_world task answer with same | same
  · rw [same]
    exact ⟨fun _ _ => rfl, fun _ _ => rfl, rfl, ⟨_, rfl⟩, Nat.le_refl _⟩
  · rw [same]
    exact ⟨fun _ _ => rfl, fun _ _ => rfl, rfl, ⟨_, rfl⟩, Nat.le_add_right ..⟩

theorem verdict_retires {answer : RunAnswer} (tells : answer.Tells (w.isDone i)) :
    (w.verdict i answer).1.retires = w.isDone i := by
  cases answer with
  | suspended | done => exact Eq.symm tells
  | failed error =>
    have done : w.isDone i = true := tells
    simp only [verdict, done, ↓reduceIte]
    split <;> rfl
  | misused misuse => exact tells.elim

theorem StandsAt.verdict {steps : Nat} (stands : StandsAt execute start i steps w)
    (answer : RunAnswer) : StandsAt execute start i steps (w.verdict i answer).2 := by
  refine stands.congr (by rw [verdict_tasks]) ?_
  rcases w.verdict_world i answer with same | same
  · rw [same]
  · rw [same]
    rfl

/-- A dispatch takes a task one step along its course, unless the task is not due, and then settles
it by whether it is done. -/
theorem StandsAt.dispatch {steps : Nat} (confined : Confined Eq execute)
    (stands : StandsAt execute start i steps w) (latches : w.latches = start.latches)
    (unfinished : w.isDone i = false) :
    ∃ later verdict mid, w.dispatch execute i = mid.settle i verdict ∧ Spares i w mid ∧
      StandsAt execute start i later mid ∧ verdict.retires = mid.isDone i ∧
      (later = steps + 1 ∨ later = steps ∧ verdict = .putBack false ∧
        ∃ t, w.tasks[i]? = some t ∧ mid.clock.now < t.due) := by
  have waits : (w.isReady i).2.isDone i = false := (w.isReady_isDone i).trans unfinished
  simp only [World.dispatch, unfinished, Bool.false_eq_true, ↓reduceIte]
  rcases stands.ask latches with ⟨ready, called⟩ | ⟨unready, stepped⟩ | ⟨unready, stays, early⟩
  · obtain ⟨spares, stepped, answers⟩ := called.run confined
    simp only [ready, ↓reduceIte]
    have spared := verdict_spares i i ((w.isReady i).2.runTask execute i).2
      ((w.isReady i).2.runTask execute i).1
    refine ⟨steps + 1, _, _, rfl, (isReady_spares w i).trans (spares.trans spared),
      stepped.verdict _, ?_, .inl rfl⟩
    rw [verdict_retires answers]
    simp only [World.isDone, verdict_tasks]
  · simp only [unready, Bool.false_eq_true, ↓reduceIte]
    exact ⟨steps + 1, _, _, rfl, isReady_spares w i, stepped, waits.symm, .inl rfl⟩
  · simp only [unready, Bool.false_eq_true, ↓reduceIte]
    exact ⟨steps, _, _, rfl, isReady_spares w i, stays, waits.symm, .inr ⟨rfl, rfl, early⟩⟩

/-- In the queue are the tasks of `order` that are not done, each of them once. -/
structure Rostered (order : List Nat) (w : World ρ ε) : Prop where
  members : ∀ i, i ∈ w.scheduler.queue.entries ↔ i ∈ order ∧ w.isDone i = false
  distinct : w.scheduler.queue.entries.Nodup
  balanced : w.scheduler.Balanced

theorem Rostered.settle {order rest : List Nat} (roster : Rostered order w)
    (queued : w.scheduler.queue.entries = i :: rest) {w' : World ρ ε}
    (others : ∀ j, j ≠ i → w'.isDone j = w.isDone j)
    (back : w'.isDone i = false → w'.scheduler.queue.entries = rest ++ [i] ∧
      w'.scheduler.live = w.scheduler.live)
    (gone : w'.isDone i = true → w'.scheduler.queue.entries = rest ∧
      w'.scheduler.live + 1 = w.scheduler.live) : Rostered order w' := by
  have members := roster.members
  have distinct := roster.distinct
  have balanced := roster.balanced
  rw [queued] at members distinct
  simp only [Scheduler.Balanced, RunQueue.size, queued, List.length_cons] at balanced
  obtain ⟨absent, distinct⟩ := List.nodup_cons.mp distinct
  have inner (j : Nat) (elsewhere : j ≠ i) : j ∈ rest ↔ j ∈ order ∧ w'.isDone j = false := by
    rw [others j elsewhere, ← members j, List.mem_cons]
    exact (or_iff_right elsewhere).symm
  cases done : w'.isDone i with
  | false =>
    obtain ⟨queue, live⟩ := back done
    refine ⟨fun j => ?_, ?_, ?_⟩
    · rw [queue, List.mem_append, List.mem_singleton]
      by_cases here : j = i
      · subst here
        simpa [done] using ((members j).mp List.mem_cons_self).1
      · rw [← inner j here]
        exact or_iff_left here
    · rw [queue]
      exact (List.perm_append_singleton i rest).nodup_iff.mpr
        (List.nodup_cons.mpr ⟨absent, distinct⟩)
    · simp only [Scheduler.Balanced, RunQueue.size, queue, live, balanced, List.length_append,
        List.length_singleton]
  | true =>
    obtain ⟨queue, live⟩ := gone done
    refine ⟨fun j => ?_, queue ▸ distinct, ?_⟩
    · rw [queue]
      by_cases here : j = i
      · subst here
        simp [done, absent]
      · exact inner j here
    · simp only [Scheduler.Balanced, RunQueue.size, queue]
      omega

theorem Rostered.done {order : List Nat} (roster : Rostered order w)
    (idle : w.scheduler.live = 0) (i : Nat) (member : i ∈ order) : w.isDone i = true := by
  have empty : w.scheduler.queue.entries = [] := by
    have balanced := roster.balanced
    rw [Scheduler.Balanced, idle] at balanced
    exact List.length_eq_zero_iff.mp balanced.symm
  have absent := (roster.members i).not
  simpa [empty, member] using absent

/-- What holds of a run of the scheduler over the tasks of `order`, when each task has taken so many
steps since the world `start`. -/
structure Underway (execute : Context ρ ε → Ending α × Context ρ ε) (start : World ρ ε)
    (order : List Nat) (steps : Nat → Nat) (w : World ρ ε) : Prop where
  latches : w.latches = start.latches
  untimed : w.scheduler.settings.idleTimeout = none
  backoff : 1 ≤ w.scheduler.settings.idleBackoff
  stands : ∀ i ∈ order, StandsAt execute start i (steps i) w
  roster : Rostered order w

theorem settle_effects (i task : Nat) (w : World ρ ε) (verdict : Verdict) :
    (w.settle task verdict).2.effectsOf i = w.effectsOf i := by
  cases verdict <;> rfl

theorem settle_isDone (i task : Nat) (w : World ρ ε) (verdict : Verdict) :
    (w.settle task verdict).2.isDone i = w.isDone i := by
  simp only [isDone, settle_tasks]

theorem settle_settings (task : Nat) (w : World ρ ε) (verdict : Verdict) :
    (w.settle task verdict).2.latches = w.latches ∧
      (w.settle task verdict).2.clock = w.clock ∧
      (w.settle task verdict).2.scheduler.settings = w.scheduler.settings := by
  rcases verdict with moved | (_ | _) <;> exact ⟨rfl, rfl, rfl⟩

namespace Underway

variable {order : List Nat} {steps : Nat → Nat}

theorem sleep (underway : Underway execute start order steps w) :
    Underway execute start order steps w.sleep where
  latches := underway.latches
  untimed := underway.untimed
  backoff := underway.backoff
  stands := underway.stands
  roster := ⟨underway.roster.members, underway.roster.distinct, underway.roster.balanced⟩

theorem settle {mid : World ρ ε} {rest : List Nat} {later : Nat}
    (underway : Underway execute start order steps w)
    (queued : w.scheduler.queue.entries = i :: rest)
    (spares : Spares i (w.updateScheduler ({ · with queue := ⟨rest⟩ })) mid)
    (stands : StandsAt execute start i later mid) {verdict : Verdict}
    (retires : verdict.retires = mid.isDone i) :
    Underway execute start order (fun j => if j = i then later else steps j)
      (mid.settle i verdict).2 := by
  obtain ⟨lastProgress, scheduler⟩ := spares.scheduler
  obtain ⟨latches, -, settings⟩ := settle_settings i mid verdict
  refine ⟨?_, ?_, ?_, fun j member => ?_, ?_⟩
  · rw [latches, spares.latches]
    exact underway.latches
  · rw [settings, scheduler]
    exact underway.untimed
  · rw [settings, scheduler]
    exact underway.backoff
  · split
    · next here =>
      subst here
      exact stands.congr (by rw [settle_tasks]) (settle_effects ..)
    · next elsewhere =>
      refine (underway.stands j member).congr ?_ ?_
      · rw [settle_tasks, spares.tasks j elsewhere]
        rfl
      · rw [settle_effects, spares.effects j elsewhere]
        rfl
  · refine underway.roster.settle queued (fun j elsewhere => ?_) (fun waits => ?_) fun done => ?_
    · rw [settle_isDone, spares.isDone elsewhere]
      rfl
    · rw [settle_isDone, ← retires] at waits
      cases verdict with
      | putBack moved =>
        simp [World.settle, updateScheduler, scheduler, Scheduler.enqueue, RunQueue.push]
      | retired abandoned => cases waits
    · rw [settle_isDone, ← retires] at done
      have balanced := underway.roster.balanced
      simp only [Scheduler.Balanced, RunQueue.size, queued, List.length_cons] at balanced
      cases verdict with
      | putBack moved => cases done
      | retired abandoned =>
        cases abandoned <;>
          simp [World.settle, updateScheduler, scheduler, Scheduler.retire, Scheduler.count,
            Scheduler.drop, balanced]

theorem dispatch (confined : Confined Eq execute)
    (underway : Underway execute start order steps w) {taken : World ρ ε}
    (took : w.take? = some (i, taken)) :
    ∃ later, Underway execute start order (fun j => if j = i then later else steps j)
        (taken.dispatch execute i).2 ∧
      w.clock.now ≤ (taken.dispatch execute i).2.clock.now ∧
      (later = steps i + 1 ∨ later = steps i ∧ (taken.dispatch execute i).1 = false ∧
        (taken.dispatch execute i).2.scheduler.queue.size = w.scheduler.queue.size ∧
        ∃ t, w.tasks[i]? = some t ∧ (taken.dispatch execute i).2.clock.now < t.due) := by
  obtain ⟨rest, queued, rfl⟩ := take?_eq_some_iff.mp took
  obtain ⟨member, unfinished⟩ := (underway.roster.members i).mp (queued ▸ List.mem_cons_self)
  obtain ⟨later, verdict, mid, same, spares, stands, retires, progress⟩ :=
    StandsAt.dispatch (w := w.updateScheduler ({ · with queue := ⟨rest⟩ })) confined
      (underway.stands i member) underway.latches unfinished
  rw [same]
  refine ⟨later, underway.settle queued spares stands retires, ?_, ?_⟩
  · rw [(settle_settings i mid verdict).2.1]
    exact spares.clock
  · rcases progress with stepped | ⟨stays, putBack, t, found, early⟩
    · exact .inl stepped
    · subst putBack
      obtain ⟨lastProgress, scheduler⟩ := spares.scheduler
      refine .inr ⟨stays, rfl, ?_, t, found, early⟩
      simp [World.settle, updateScheduler, scheduler, Scheduler.enqueue, RunQueue.push,
        RunQueue.size, queued]

end Underway

def dueAt (execute : Context ρ ε → Ending α × Context ρ ε) (start : World ρ ε) (i steps : Nat) :
    Nat :=
  (start.tasks[i]?.map fun t => (t.course execute start.latches steps).1.due).getD 0

theorem StandsAt.due {steps : Nat} (stands : StandsAt execute start i steps w) {t : Task ρ}
    (found : w.tasks[i]? = some t) : t.due = dueAt execute start i steps := by
  obtain ⟨t', began, _, reached, _⟩ := stands
  obtain rfl := Option.some.inj (found.symm.trans reached)
  simp only [dueAt, began, Option.map_some, Option.getD_some]

def remaining (order : List Nat) (limit steps : Nat → Nat) : Nat :=
  (order.map fun i => limit i - steps i).sum

/-- The time that is left until each of the tasks is due, added up. -/
def delay (execute : Context ρ ε → Ending α × Context ρ ε) (start : World ρ ε) (order : List Nat)
    (steps : Nat → Nat) (now : Nat) : Nat :=
  (order.map fun i => dueAt execute start i (steps i) - now).sum

section

variable {order : List Nat} {steps : Nat → Nat}

theorem remaining_step {limit : Nat → Nat} (member : i ∈ order) (left : steps i < limit i) :
    remaining order limit (fun j => if j = i then steps i + 1 else steps j) <
      remaining order limit steps := by
  refine List.sum_lt_sum _ _ (fun j _ => ?_) ⟨i, member, ?_⟩
  · dsimp only
    split
    · next here =>
      subst here
      omega
    · exact Nat.le_refl _
  · simp only [↓reduceIte]
    omega

theorem delay_le {now later : Nat} (passed : now ≤ later) :
    delay execute start order steps later ≤ delay execute start order steps now :=
  List.sum_le_sum fun _ _ => Nat.sub_le_sub_left passed _

theorem delay_lt {now later : Nat} (member : i ∈ order) (passed : now < later)
    (early : now < dueAt execute start i (steps i)) :
    delay execute start order steps later < delay execute start order steps now :=
  List.sum_lt_sum _ _ (fun _ _ => Nat.sub_le_sub_left (Nat.le_of_lt passed) _)
    ⟨i, member, Nat.sub_lt_sub_left early passed⟩

theorem Underway.unfinished {limit : Nat → Nat}
    (limits : ∀ i ∈ order, ∀ t, start.tasks[i]? = some t →
      (t.course execute start.latches (limit i)).1.isDone = true)
    (underway : Underway execute start order steps w) (member : i ∈ order)
    (waits : w.isDone i = false) : steps i < limit i := by
  obtain ⟨t, began, _, found, _⟩ := underway.stands i member
  apply Nat.lt_of_not_le
  intro past
  have done := limits i member t began
  rw [isDone_of_found found, Task.course_done done past, done] at waits
  cases waits

theorem Underway.turned {limit : Nat → Nat} (confined : Confined Eq execute)
    (limits : ∀ i ∈ order, ∀ t, start.tasks[i]? = some t →
      (t.course execute start.latches (limit i)).1.isDone = true)
    (underway : Underway execute start order steps w) (live : w.scheduler.live ≠ 0)
    {misses later : Nat} {v : World ρ ε} (turned : w.Turned execute misses later v) :
    ∃ steps', Underway execute start order steps' v ∧
      (remaining order limit steps' < remaining order limit steps ∨ steps' = steps ∧
        (delay execute start order steps v.clock.now <
            delay execute start order steps w.clock.now ∨
          delay execute start order steps v.clock.now ≤
            delay execute start order steps w.clock.now ∧
          v.scheduler.queue.size + 1 - later < w.scheduler.queue.size + 1 - misses)) := by
  have stepped {task : Nat} {taken : World ρ ε} (took : w.take? = some (task, taken)) :
      task ∈ order ∧ steps task < limit task := by
    obtain ⟨rest, queued, -⟩ := take?_eq_some_iff.mp took
    obtain ⟨member, waits⟩ := (underway.roster.members task).mp (queued ▸ List.mem_cons_self)
    exact ⟨member, underway.unfinished limits member waits⟩
  have stayed (task : Nat) : (fun j => if j = task then steps task else steps j) = steps := by
    funext j
    split
    · next here => rw [here]
    · rfl
  have checked := timedOut_unlimited underway.untimed
  cases turned with
  | starved empty =>
    obtain ⟨task, taken, took⟩ := take?_of_live underway.roster.balanced live
    rw [checked, took] at empty
    cases empty
  | moved took moved =>
    rw [checked] at took
    obtain ⟨next, underway', -, progress⟩ := underway.dispatch confined took
    -- A task that gets on takes a step of its course.
    rcases progress with rfl | ⟨-, stuck, -⟩
    · exact ⟨_, underway', .inl (remaining_step (stepped took).1 (stepped took).2)⟩
    · rw [moved] at stuck
      cases stuck
  | swept took =>
    rw [checked] at took
    obtain ⟨next, underway', passed, progress⟩ := underway.dispatch confined took
    -- Nothing got on in a whole sweep, and the pause shortens the time until something is due.
    rcases progress with rfl | ⟨rfl, -, -, t, found, early⟩
    · exact ⟨_, underway'.sleep, .inl (remaining_step (stepped took).1 (stepped took).2)⟩
    · rw [stayed] at underway'
      rw [(underway.stands _ (stepped took).1).due found] at early
      refine ⟨steps, underway'.sleep, .inr ⟨rfl, .inl ?_⟩⟩
      refine delay_lt (stepped took).1 ?_ (Nat.lt_of_le_of_lt passed early)
      have backoff := underway'.backoff
      simp only [World.sleep, Clock.sleep]
      omega
  | missed took stuck left =>
    rw [checked] at took
    obtain ⟨next, underway', passed, progress⟩ := underway.dispatch confined took
    -- The task is not due, and the next pause is one turn nearer.
    rcases progress with rfl | ⟨rfl, -, size, -⟩
    · exact ⟨_, underway', .inl (remaining_step (stepped took).1 (stepped took).2)⟩
    · rw [stayed] at underway'
      refine ⟨steps, underway', .inr ⟨rfl, .inr ⟨delay_le passed, ?_⟩⟩⟩
      omega

theorem Underway.completes {limit : Nat → Nat} (confined : Confined Eq execute)
    (limits : ∀ i ∈ order, ∀ t, start.tasks[i]? = some t →
      (t.course execute start.latches (limit i)).1.isDone = true)
    {steps : Nat → Nat} {w : World ρ ε} (underway : Underway execute start order steps w)
    (misses : Nat) :
    ∃ turns steps' w', runTurns execute turns misses w = some w' ∧ w'.scheduler.live = 0 ∧
      Underway execute start order steps' w' := by
  rcases turn_cases execute misses w with
    ⟨idle, stops⟩ | ⟨late, _⟩ | ⟨live, _, next, v, goes, turned⟩
  · exact ⟨1, steps, w, by simp only [runTurns, stops], idle, underway⟩
  · rw [timedOut_unlimited underway.untimed] at late
    cases late
  · obtain ⟨steps', underway', less⟩ := underway.turned confined limits live turned
    obtain ⟨turns, last, w', ends, idle, complete⟩ := completes confined limits underway' next
    exact ⟨turns + 1, last, w', by simp only [runTurns, goes, ends], idle, complete⟩
termination_by (remaining order limit steps, delay execute start order steps w.clock.now,
  w.scheduler.queue.size + 1 - misses)
decreasing_by
  rcases less with fewer | ⟨rfl, sooner | ⟨notLater, nearer⟩⟩
  · exact .left _ _ fewer
  · exact .right _ (.left _ _ sooner)
  · rcases Nat.lt_or_eq_of_le notLater with sooner | same
    · exact .right _ (.left _ _ sooner)
    · rw [same]
      exact .right _ (.right _ nearer)

end

theorem foldl_spawn (w : World ρ ε) (order : List Nat) :
    order.foldl spawn w =
      w.updateScheduler (·.spawnAll (order.filter fun i => !w.isDone i)) := by
  induction order generalizing w with
  | nil => rfl
  | cons task rest ih =>
    rw [List.foldl_cons, ih]
    cases done : w.isDone task with
    | true => simp [spawn, done]
    | false =>
      have same (i : Nat) : (w.updateScheduler (·.spawn task)).isDone i = w.isDone i := rfl
      simp only [spawn, done, Bool.false_eq_true, ↓reduceIte, same, Bool.not_false,
        List.filter_cons_of_pos]
      rfl

theorem spawned_underway {w : World ρ ε} {settings : Settings}
    (untimed : settings.idleTimeout = none) (choice : ClassifierChoice) {order : List Nat}
    (distinct : order.Nodup) (settled : ∀ i ∈ order, ∃ t, w.tasks[i]? = some t ∧ t.Settled) :
    Underway execute w order (fun _ => 0)
      (order.foldl spawn (w.openScheduler settings choice)).beginRun := by
  have isDone (i : Nat) : (w.openScheduler settings choice).isDone i = w.isDone i := rfl
  rw [foldl_spawn]
  simp only [isDone, Scheduler.spawnAll_eq]
  constructor
  · rfl
  · exact untimed
  · show 1 ≤ (Scheduler.adopt settings _).idleBackoff
    simp only [Scheduler.adopt, Settings.normalize]
    split <;> omega
  · intro i member
    obtain ⟨t, found, settled⟩ := settled i member
    exact ⟨t, found, settled, found, (List.append_nil _).symm⟩
  · constructor
    · intro i
      show i ∈ [] ++ order.filter _ ↔ i ∈ order ∧ w.isDone i = false
      simp
    · exact distinct.filter _
    · show 0 + _ = ([] ++ order.filter _).length
      simp

/-- A new scheduler comes to the end of distinct tasks that keep to themselves and come to their end
by themselves. Each then has the effects and the outcome that it has in any world in which it is
only run, as often as it takes. -/
theorem scheduler_completes_in_isolation {enter : ρ → Script ρ ε}
    (secluded : ∀ object, (enter object).Secluded) (depth : Nat) (w : World ρ ε)
    {settings : Settings} (untimed : settings.idleTimeout = none) (choice : ClassifierChoice)
    {order : List Nat} (distinct : order.Nodup)
    (finite : ∀ i ∈ order, ∃ t, w.tasks[i]? = some t ∧ t.Settled ∧
      t.RunsDown (Script.execute enter depth) w.latches) :
    ∃ turns report w', (order.foldl spawn (w.openScheduler settings choice)).runCurrentThread
        (Script.execute enter depth) turns = some (report, w') ∧ report.pending = 0 ∧
      ∀ i ∈ order, ∀ (alone : World ρ ε) (j : Nat), alone.tasks[j]? = w.tasks[i]? →
        ∃ runs outcome effects,
          let driven := (alone.answerAll (.replicate runs (.run j enter depth))).2
          driven.tasks[j]?.bind Task.exit = some outcome ∧
          w'.tasks[i]?.bind Task.exit = some outcome ∧
          driven.effectsOf j = alone.effectsOf j ++ effects ∧
          w'.effectsOf i = w.effectsOf i ++ effects := by
  have confined := Script.execute_confined WaitReason.likeness_eq
    (fun object => (secluded object).1) (fun object => (enter object).indifferent_eq) depth
  have begun : Underway (Script.execute enter depth) w order (fun _ => 0)
      (order.foldl spawn (w.openScheduler settings choice)).beginRun := by
    refine spawned_underway untimed choice distinct fun i member => ?_
    obtain ⟨t, found, settled, -⟩ := finite i member
    exact ⟨t, found, settled⟩
  have limited (i : Nat) (member : i ∈ order) : ∃ steps, ∀ t, w.tasks[i]? = some t →
      (t.course (Script.execute enter depth) w.latches steps).1.isDone = true := by
    obtain ⟨t, found, -, steps, done⟩ := finite i member
    refine ⟨steps, fun t' found' => ?_⟩
    obtain rfl := Option.some.inj (found.symm.trans found')
    exact done
  choose! limit limits using limited
  obtain ⟨turns, steps, w', ends, idle, complete⟩ := begun.completes confined limits 0
  refine ⟨turns, w'.scheduler.report, w', by simp only [runCurrentThread, ends, Option.map_some],
    idle, ?_⟩
  intro i member alone j same
  have done := complete.roster.done idle i member
  obtain ⟨t, found, settled, reached, effects⟩ := complete.stands i member
  rw [isDone_of_found reached] at done
  rw [found] at same
  obtain ⟨runs, s, driven, pair, alike⟩ := course_driven secluded depth w.latches same (steps i)
  obtain ⟨outcome, exit⟩ := (Task.course_settled confined settled (steps i)).exit_of_done done
  refine ⟨runs, outcome, _, ?_, ?_, alike, effects⟩
  · rw [driven, Option.bind_some, pair.exit_eq, exit]
  · rw [reached, Option.bind_some, exit]

end World

inductive Errand where
  | yields | waits | sleeps | fails | panics
  deriving DecidableEq

namespace Errand

def interrupted (reason : WaitReason) : Routine Nat .unit :=
  .effect (fun _ => 1) id <| .suspend 1 (fun _ => reason) <| .effect (fun _ => 2) id <|
  .finish fun _ => .unit

def script : Errand → Script Errand Nat
  | yields => (interrupted .yield).woven ⟨.unit, rfl⟩
  | waits => (interrupted (.on (.probe { answer := fun asked _ => 2 ≤ asked } 0))).woven
    ⟨.unit, rfl⟩
  | sleeps => (interrupted (.on (.deadline 7))).woven ⟨.unit, rfl⟩
  | fails => .act (.emit 3) fun _ => .done (.unwound (.failed (.internal "lost")))
  | panics => .act (.emit 4) fun _ => .done (.panicked (.text "lost"))

theorem script_secluded (errand : Errand) : errand.script.Secluded := by
  cases errand with
  | yields | waits | sleeps => exact Routine.woven_secluded _ _
  | fails | panics => exact .act trivial trivial fun _ => .done _

def all : List Errand := [yields, waits, sleeps, fails, panics]

theorem mem_all (errand : Errand) : errand ∈ all := by cases errand <;> decide

def world : World Errand Nat :=
  { tasks := all.mapIdx fun i entry => { id := .ofIndex i, entry }
    scheduler := default }

def order : List Nat := [4, 2, 0, 3, 1]

theorem order_nodup : order.Nodup := by decide

theorem world_runsDown (i : Nat) (member : i ∈ order) : ∃ t, world.tasks[i]? = some t ∧ t.Settled ∧
    t.RunsDown (Script.execute script 1) world.latches := by
  have finite : ∀ t ∈ world.tasks,
      (t.course (Script.execute script 1) world.latches 5).1.isDone = true := by decide +kernel
  have inside : i < all.length := (by decide : ∀ i ∈ order, i < all.length) i member
  have created : world.tasks[i]? = some { id := .ofIndex i, entry := all[i] } := by
    simp only [world, List.getElem?_mapIdx, List.getElem?_eq_getElem inside, Option.map_some]
  refine ⟨_, created, ?_, 5, finite _ (List.mem_of_getElem? created)⟩
  exact Task.created_settled _ _ _

def place : Errand → Nat
  | yields => 0
  | waits => 1
  | sleeps => 2
  | fails => 3
  | panics => 4

def effects : Errand → List Nat
  | yields | waits | sleeps => [1, 2]
  | fails => [3]
  | panics => [4]

def outcome : Errand → Outcome ExitValue Error
  | yields | waits | sleeps => .ok .ok
  | fails => .err (.internal "lost")
  | panics => .panicked ⟨"lost"⟩

def EndsIn (errand : Errand) (w : World Errand Nat) : Prop :=
  w.tasks[errand.place]?.bind Task.exit = some errand.outcome ∧
    w.effectsOf errand.place = errand.effects

instance (errand : Errand) (w : World Errand Nat) : Decidable (errand.EndsIn w) :=
  inferInstanceAs (Decidable (_ ∧ _))

theorem place_given (errand : Errand) : errand.place ∈ order := by
  cases errand <;> decide

def started (workers : Nat) : World Errand Nat :=
  order.foldl World.spawn (world.openScheduler (.standard workers) (.given 0))

end Errand

theorem errands_complete_in_isolation :
    ∃ turns report w', (Errand.started 1).runCurrentThread (Script.execute Errand.script 1) turns =
        some (report, w') ∧ report.pending = 0 ∧
      ∀ errand : Errand, errand.EndsIn w' ∧ ∃ runs, errand.EndsIn
        (Errand.world.answerAll (.replicate runs (.run errand.place Errand.script 1))).2 := by
  have untimed : (Settings.standard 1).idleTimeout = none := rfl
  obtain ⟨turns, report, w', finished, complete, isolated⟩ :=
    World.scheduler_completes_in_isolation Errand.script_secluded 1 Errand.world untimed
      (.given 0) Errand.order_nodup Errand.world_runsDown
  have computed : ((Errand.started 1).runCurrentThread (Script.execute Errand.script 1) 30).any
      (fun ran => Errand.all.all fun errand => errand.EndsIn ran.2) = true := by decide +kernel
  obtain ⟨ran, finished', ends⟩ := (Option.any_eq_true _ _).mp computed
  obtain rfl := World.runCurrentThread_unique finished finished'
  refine ⟨turns, report, w', finished, complete, fun errand => ?_⟩
  have ended : errand.EndsIn w' :=
    of_decide_eq_true (List.all_eq_true.mp ends errand errand.mem_all)
  obtain ⟨runs, outcome, effects, exit, exit', emitted, emitted'⟩ :=
    isolated errand.place errand.place_given Errand.world errand.place rfl
  refine ⟨ended, runs, ?_, ?_⟩
  · rw [exit, ← exit']
    exact ended.1
  · rw [emitted, ← emitted']
    exact ended.2

end ResumableTasks
