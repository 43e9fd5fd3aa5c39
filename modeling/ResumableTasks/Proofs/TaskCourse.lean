import ResumableTasks.Calls
import ResumableTasks.Proofs.ConfinedRoutine
/-!
The course of a task. A task whose routine keeps to itself can do only one thing next: if it could
go on it is run, and if not it is asked again. Its course is therefore fixed, whoever takes the
steps and whatever happens in between; a deadline is the only thing that time decides, and until it
is due a question changes nothing. Along the course the task has the effects, and comes to the
outcome, that it has when it is run again and again without ever being asked.
-/
namespace ResumableTasks

variable {ρ ε α : Type}

namespace WaitReason

def due : WaitReason → Nat
  | .on (.deadline due) => due
  | _ => 0

theorem poll_due (reason : WaitReason) (latches : List Bool) {now : Nat}
    (reached : reason.due ≤ now) (task : TaskId) :
    reason.poll latches now task = reason.poll latches reason.due task := by
  rcases reason with _ | _ | (_ | time | _)
  · rfl
  · rfl
  · rfl
  · simp only [due] at reached
    simp [poll, Condition.poll, due, reached]
  · rfl

theorem poll_early (reason : WaitReason) (latches : List Bool) {now : Nat}
    (early : now < reason.due) (task : TaskId) :
    reason.poll latches now task = (false, reason) := by
  rcases reason with _ | _ | (_ | time | _)
  · simp [due] at early
  · simp [due] at early
  · simp [due] at early
  · simp only [due] at early
    simp [poll, Condition.poll, early]
  · simp [due] at early

theorem poll_endsAlike (reason : WaitReason) (latches : List Bool) (now : Nat) (task : TaskId) :
    EndsAlike (some reason) (some (reason.poll latches now task).2) := by
  cases reason <;> rfl

end WaitReason

namespace Task

def due (t : Task ρ) : Nat := (t.reason.map WaitReason.due).getD 0

theorem poll_cases (t : Task ρ) (latches : List Bool) (now : Nat) :
    t.poll latches now = t.poll latches t.due ∨
      t.poll latches now = (false, t) ∧ now < t.due := by
  simp only [poll]
  split
  · exact .inl rfl
  · exact .inl rfl
  · exact .inl rfl
  · split
    · exact .inl rfl
    · cases waiting : t.reason with
      | none => exact .inl rfl
      | some reason =>
        have due : t.due = reason.due := by simp [Task.due, waiting]
        rw [due]
        -- Only a deadline hangs on the time, and only before it is due.
        by_cases reached : reason.due ≤ now
        · simp only [reason.poll_due latches reached, true_or]
        · have early : now < reason.due := Nat.lt_of_not_le reached
          right
          simp only [reason.poll_early latches early, ← waiting, early, and_self]

theorem poll_done {t : Task ρ} (done : t.isDone = true) (latches : List Bool) (now : Nat) :
    t.poll latches now = (false, t) := by
  have state : t.state = .done := by simpa [isDone_eq] using done
  simp only [poll, state]

end Task

namespace World

def lone (t : Task ρ) : World ρ ε := { tasks := [t], scheduler := default }

def effectsOf (w : World ρ ε) (task : Nat) : List ε :=
  w.log.filterMap fun entry => if entry.1 = task then some entry.2 else none

theorem effectsOf_emitAll (w : World ρ ε) (task : Nat) (effects : List ε) :
    (w.emitAll task effects).effectsOf task = w.effectsOf task ++ effects := by
  have own : effects.filterMap (fun effect => some effect) = effects := List.filterMap_some
  simp only [effectsOf, emitAll, List.filterMap_append, List.filterMap_map, Function.comp_def,
    ↓reduceIte, own]

theorem effectsOf_emitAll_other (w : World ρ ε) {task other : Nat} (elsewhere : other ≠ task)
    (effects : List ε) : (w.emitAll task effects).effectsOf other = w.effectsOf other := by
  have foreign : effects.filterMap (fun _ => (none : Option ε)) = [] :=
    List.filterMap_eq_nil_iff.mpr fun _ _ => rfl
  simp only [effectsOf, emitAll, List.filterMap_append, List.filterMap_map, Function.comp_def,
    elsewhere.symm, ↓reduceIte, foreign, List.append_nil]

end World

namespace Task

def runAlone (execute : Context ρ ε → Ending α × Context ρ ε) (t : Task ρ) :
    RunAnswer × Task ρ × List ε :=
  let ran := (World.lone t).runTask execute 0
  (ran.1, ran.2.tasks[0]?.getD t, ran.2.log.map Prod.snd)

/-- The next step of a task: it is asked, if for a deadline then when it is due, and if it could go
on it is run. -/
def advance (execute : Context ρ ε → Ending α × Context ρ ε) (latches : List Bool) (t : Task ρ) :
    Task ρ × List ε :=
  let asked := t.poll latches t.due
  if asked.1 then (asked.2.runAlone execute).2 else (asked.2, [])

def course (execute : Context ρ ε → Ending α × Context ρ ε) (latches : List Bool) (t : Task ρ) :
    Nat → Task ρ × List ε
  | 0 => (t, [])
  | steps + 1 =>
    let past := t.course execute latches steps
    let next := past.1.advance execute latches
    (next.1, past.2 ++ next.2)

/-- The task suspends finitely often, each time on something that is ready after finitely many
questions. -/
def RunsDown (execute : Context ρ ε → Ending α × Context ρ ε) (latches : List Bool)
    (t : Task ρ) : Prop :=
  ∃ steps, (t.course execute latches steps).1.isDone = true

end Task

def RunAnswer.Tells (done : Bool) : RunAnswer → Prop
  | .suspended => done = false
  | .done | .failed _ => done = true
  | .misused _ => False

open Context

theorem World.runTask_alone {execute : Context ρ ε → Ending α × Context ρ ε}
    (confined : Confined Eq execute) {w : World ρ ε} {i : Nat} {t : Task ρ}
    (found : w.tasks[i]? = some t) :
    w.runTask execute i = ((t.runAlone execute).1,
      (w.updateTask i fun _ => (t.runAlone execute).2.1).emitAll i (t.runAlone execute).2.2) := by
  have alone : (lone t : World ρ ε).tasks[0]? = some t := rfl
  obtain ⟨answer, s, s', effects, pair, ran, lonely⟩ := runTask_parallel WaitReason.likeness_eq
    confined found alone (Task.Alike.refl WaitReason.likeness_eq t)
  have same : s' = s := by
    cases pair with
    | waiting likely => rw [← likely]
  subst same
  rw [ran, Task.runAlone, lonely]
  simp [lone, updateTask, emitAll, Function.comp_def]

namespace Task

theorem settle_answers {t : Task ρ} {settlement : Settlement ρ}
    (proper : ∀ misuse, settlement ≠ .misused misuse) :
    (t.settle settlement).1.Tells (t.settle settlement).2.isDone := by
  cases settlement with
  | finished | failed | suspended => rfl
  | misused misuse => exact absurd rfl (proper misuse)

theorem runAlone_settles {execute : Context ρ ε → Ending α × Context ρ ε}
    (confined : Confined Eq execute) {t : Task ρ} (settled : t.Settled)
    (unfinished : t.isDone = false) :
    (t.runAlone execute).2.1.Settled ∧
      (t.runAlone execute).1.Tells (t.runAlone execute).2.1.isDone := by
  have found : (World.lone t : World ρ ε).tasks[0]? = some t := rfl
  rcases Sound.admission_cases (.inl settled) with ⟨running, _⟩ | ⟨done, _⟩ |
    ⟨_, reason, admitted⟩ | ⟨_, unexited, frames, admitted⟩
  · exact absurd running settled.not_running
  · simp [isDone_eq, done] at unfinished
  · have ran : t.runAlone execute = (.done, t.conclude (.cancelled reason), []) := by
      simp [runAlone, World.lone, World.runTask, admitted, World.updateTask]
    rw [ran]
    exact ⟨conclude_settled t _, rfl⟩
  · have twin : Twin Eq ((World.lone t : World ρ ε).started 0 t frames)
        ((World.lone t).started 0 t frames) := ⟨rfl, rfl, rfl, rfl, rfl⟩
    obtain ⟨effects, emitted, -⟩ := (confined _ _ twin).world
    have ran := World.runTask_started found admitted rfl emitted
    have alone (settled : RunAnswer × Task ρ) : ((settled.1,
        ((World.lone t : World ρ ε).updateTask 0 fun _ => settled.2).emitAll 0 effects) :
        RunAnswer × World ρ ε) = (World.lone t).runTask execute 0 →
        (t.runAlone execute).1 = settled.1 ∧ (t.runAlone execute).2.1 = settled.2 := by
      intro same
      rw [runAlone, ← same]
      exact ⟨rfl, rfl⟩
    obtain ⟨answer, after⟩ := alone _ ran.symm
    rw [answer, after]
    refine ⟨?_, settle_answers fun misuse => Settlement.ofEnding_ne_misused misuse⟩
    apply settle_settled
    exact unexited

theorem poll_settled {t : Task ρ} (settled : t.Settled) (latches : List Bool) (now : Nat) :
    (t.poll latches now).2.Settled := by
  have becomes := poll_becomes (.inl settled) latches now
  rcases becomes.sound with stays | ⟨running, _⟩
  · exact stays
  · exact absurd (becomes.running.mp running) settled.not_running

theorem poll_alike (t : Task ρ) (latches : List Bool) (now : Nat) :
    t.Alike WaitReason.EndsAlike (t.poll latches now).2 := by
  have unchanged : t.Alike WaitReason.EndsAlike t :=
    .refl WaitReason.likeness_ended t
  simp only [poll]
  split
  · exact unchanged
  · exact unchanged
  · exact unchanged
  · split
    · exact unchanged
    · split
      · exact unchanged
      · next reason waiting =>
        refine .waiting ?_
        rw [waiting]
        exact reason.poll_endsAlike latches now t.id

theorem Alike.isDone_eq {alike : Option WaitReason → Option WaitReason → Prop} {t t' : Task ρ}
    (pair : t.Alike alike t') : t'.isDone = t.isDone := by
  cases pair
  rfl

theorem Alike.exit_eq {alike : Option WaitReason → Option WaitReason → Prop} {t t' : Task ρ}
    (pair : t.Alike alike t') : t'.exit = t.exit := by
  cases pair
  rfl

theorem Settled.exit_of_done {t : Task ρ} (settled : t.Settled) (done : t.isDone = true) :
    ∃ outcome, t.exit = some outcome := by
  have state : t.state = .done := by simpa [isDone_eq] using done
  obtain ⟨outcome, exit, -⟩ := settled.done state
  exact ⟨outcome, exit⟩

theorem Alike.meet {t t' s : Task ρ}
    (first : t.Alike WaitReason.EndsAlike t')
    (second : t.Alike WaitReason.EndsAlike s) :
    t'.Alike WaitReason.EndsAlike s := by
  cases first with
  | waiting one =>
    cases second with
    | waiting two => exact .waiting (Eq.trans two (Eq.symm one))

theorem poll_isDone (t : Task ρ) (latches : List Bool) (now : Nat) :
    (t.poll latches now).2.isDone = t.isDone :=
  (t.poll_alike latches now).isDone_eq

section

variable {execute : Context ρ ε → Ending α × Context ρ ε} {latches : List Bool} {t : Task ρ}

theorem advance_done (done : t.isDone = true) : t.advance execute latches = (t, []) := by
  simp only [advance, poll_done done, Bool.false_eq_true, ↓reduceIte]

theorem advance_settled (confined : Confined Eq execute) (settled : t.Settled) :
    (t.advance execute latches).1.Settled := by
  cases unfinished : t.isDone with
  | true =>
    rw [advance_done unfinished]
    exact settled
  | false =>
    have asked := poll_settled settled latches t.due
    rw [← t.poll_isDone latches t.due] at unfinished
    simp only [advance]
    split
    · exact (runAlone_settles confined asked unfinished).1
    · exact asked

theorem course_settled (confined : Confined Eq execute) (settled : t.Settled) (steps : Nat) :
    (t.course execute latches steps).1.Settled := by
  induction steps with
  | zero => exact settled
  | succ steps ih => exact advance_settled confined ih

theorem course_done {steps : Nat} (done : (t.course execute latches steps).1.isDone = true)
    {later : Nat} (behind : steps ≤ later) :
    t.course execute latches later = t.course execute latches steps := by
  induction behind with
  | refl => rfl
  | step _ ih => simp only [course, ih, advance_done done, List.append_nil]

end

end Task

namespace World

variable {execute : Context ρ ε → Ending α × Context ρ ε} {start w w' : World ρ ε} {i steps : Nat}

/-- The task at position `i` has come so many steps along its course since the world `start`. -/
def StandsAt (execute : Context ρ ε → Ending α × Context ρ ε) (start : World ρ ε) (i steps : Nat)
    (w : World ρ ε) : Prop :=
  ∃ t, start.tasks[i]? = some t ∧ t.Settled ∧
    w.tasks[i]? = some (t.course execute start.latches steps).1 ∧
    w.effectsOf i = start.effectsOf i ++ (t.course execute start.latches steps).2

def CalledUp (execute : Context ρ ε → Ending α × Context ρ ε) (start : World ρ ε) (i steps : Nat)
    (w : World ρ ε) : Prop :=
  ∃ t s, start.tasks[i]? = some t ∧ t.Settled ∧
    (t.course execute start.latches steps).1.poll start.latches
      (t.course execute start.latches steps).1.due = (true, s) ∧ w.tasks[i]? = some s ∧
    w.effectsOf i = start.effectsOf i ++ (t.course execute start.latches steps).2

/-- Nothing changes but the task at position `i`, what it emits, and the time. -/
structure Spares (i : Nat) (w w' : World ρ ε) : Prop where
  tasks : ∀ j, j ≠ i → w'.tasks[j]? = w.tasks[j]?
  effects : ∀ j, j ≠ i → w'.effectsOf j = w.effectsOf j
  latches : w'.latches = w.latches
  scheduler : ∃ lastProgress, w'.scheduler = { w.scheduler with lastProgress }
  clock : w.clock.now ≤ w'.clock.now

theorem StandsAt.congr (stands : StandsAt execute start i steps w)
    (tasks : w'.tasks[i]? = w.tasks[i]?) (effects : w'.effectsOf i = w.effectsOf i) :
    StandsAt execute start i steps w' := by
  simpa only [StandsAt, tasks, effects] using stands

theorem CalledUp.congr (called : CalledUp execute start i steps w)
    (tasks : w'.tasks[i]? = w.tasks[i]?) (effects : w'.effectsOf i = w.effectsOf i) :
    CalledUp execute start i steps w' := by
  simpa only [CalledUp, tasks, effects] using called

theorem Spares.trans {v : World ρ ε} (first : Spares i w w') (later : Spares i w' v) :
    Spares i w v where
  tasks j elsewhere := (later.tasks j elsewhere).trans (first.tasks j elsewhere)
  effects j elsewhere := (later.effects j elsewhere).trans (first.effects j elsewhere)
  latches := later.latches.trans first.latches
  scheduler := by
    obtain ⟨_, one⟩ := first.scheduler
    obtain ⟨lastProgress, two⟩ := later.scheduler
    exact ⟨lastProgress, by rw [two, one]⟩
  clock := Nat.le_trans first.clock later.clock

theorem Spares.isDone {j : Nat} (spares : Spares i w w') (elsewhere : j ≠ i) :
    w'.isDone j = w.isDone j := by
  simp only [World.isDone, spares.tasks j elsewhere]

theorem isDone_of_found {t : Task ρ} (found : w.tasks[i]? = some t) : w.isDone i = t.isDone := by
  simp only [isDone, found, Option.any_some]

theorem updateTask_spares (w : World ρ ε) (i : Nat) (change : Task ρ → Task ρ)
    (effects : List ε) : Spares i w ((w.updateTask i change).emitAll i effects) where
  tasks j elsewhere := by simp [updateTask, emitAll, elsewhere.symm]
  effects j elsewhere := effectsOf_emitAll_other _ elsewhere effects
  latches := rfl
  scheduler := ⟨_, rfl⟩
  clock := Nat.le_refl _

theorem found_updateTask {t : Task ρ} (found : w.tasks[i]? = some t) (change : Task ρ → Task ρ)
    (effects : List ε) :
    ((w.updateTask i change).emitAll i effects).tasks[i]? = some (change t) := by
  simp [updateTask, emitAll, found]

theorem CalledUp.run (confined : Confined Eq execute) (called : CalledUp execute start i steps w) :
    Spares i w (w.runTask execute i).2 ∧
    StandsAt execute start i (steps + 1) (w.runTask execute i).2 ∧
    (w.runTask execute i).1.Tells ((w.runTask execute i).2.isDone i) := by
  obtain ⟨t, s, began, settled, asked, found, effects⟩ := called
  have past : (t.course execute start.latches steps).1.Settled :=
    Task.course_settled confined settled steps
  have called_settled : s.Settled := by
    have polled := Task.poll_settled past start.latches (t.course execute start.latches steps).1.due
    rwa [asked] at polled
  have unfinished : s.isDone = false := by
    have same := Task.poll_isDone (t.course execute start.latches steps).1 start.latches
      (t.course execute start.latches steps).1.due
    rw [asked] at same
    rw [same, ← Bool.not_eq_true]
    intro done
    rw [Task.poll_done done] at asked
    cases asked
  have next : t.course execute start.latches (steps + 1) = ((s.runAlone execute).2.1,
      (t.course execute start.latches steps).2 ++ (s.runAlone execute).2.2) := by
    simp only [Task.course, Task.advance, asked, ↓reduceIte]
  have answers := (Task.runAlone_settles confined called_settled unfinished).2
  have after := found_updateTask found (fun _ => (s.runAlone execute).2.1) (s.runAlone execute).2.2
  rw [runTask_alone confined found]
  refine ⟨updateTask_spares .., ⟨t, began, settled, ?_, ?_⟩, ?_⟩
  · rw [next]
    exact after
  · rw [next, effectsOf_emitAll, ← List.append_assoc, ← effects]
    rfl
  · simpa only [isDone_of_found after] using answers

theorem isReady_found {t : Task ρ} (found : w.tasks[i]? = some t) :
    (w.isReady i).1 = (t.poll w.latches (w.isReady i).2.clock.now).1 ∧
      (w.isReady i).2.tasks[i]? = some (t.poll w.latches (w.isReady i).2.clock.now).2 := by
  simp [isReady, found, updateTask, readClock, Clock.read]

theorem isReady_spares (w : World ρ ε) (i : Nat) : Spares i w (w.isReady i).2 where
  tasks j elsewhere := by simp [isReady, updateTask, readClock, elsewhere.symm]
  effects _ _ := rfl
  latches := rfl
  scheduler := ⟨_, rfl⟩
  clock := by simp [isReady, updateTask, readClock, Clock.read]

/-- What a question does to a task on its course: it could go on, or the question was a step of the
course, or it changed nothing because the task is not due. -/
theorem StandsAt.ask (stands : StandsAt execute start i steps w)
    (latches : w.latches = start.latches) :
    ((w.isReady i).1 = true ∧ CalledUp execute start i steps (w.isReady i).2) ∨
    ((w.isReady i).1 = false ∧ StandsAt execute start i (steps + 1) (w.isReady i).2) ∨
    ((w.isReady i).1 = false ∧ StandsAt execute start i steps (w.isReady i).2 ∧
      ∃ t, w.tasks[i]? = some t ∧ (w.isReady i).2.clock.now < t.due) := by
  obtain ⟨t, began, settled, found, effects⟩ := stands
  obtain ⟨ready, after⟩ := isReady_found found
  rw [latches] at ready after
  rcases Task.poll_cases (t.course execute start.latches steps).1 start.latches
    (w.isReady i).2.clock.now with timely | ⟨unchanged, early⟩
  · rw [timely] at ready after
    cases asked : (t.course execute start.latches steps).1.poll start.latches
      (t.course execute start.latches steps).1.due with
    | mk goes polled =>
      rw [asked] at ready after
      cases goes with
      | true => exact .inl ⟨ready, t, polled, began, settled, asked, after, effects⟩
      | false =>
        have next : t.course execute start.latches (steps + 1) =
            (polled, (t.course execute start.latches steps).2) := by
          simp only [Task.course, Task.advance, asked, Bool.false_eq_true, ↓reduceIte,
            List.append_nil]
        refine .inr (.inl ⟨ready, t, began, settled, ?_, ?_⟩)
        · rw [next]
          exact after
        · rw [next]
          exact effects
  · rw [unchanged] at ready after
    exact .inr (.inr ⟨ready, ⟨t, began, settled, after, effects⟩, _, found, early⟩)

theorem isReady_isDone (w : World ρ ε) (i : Nat) : (w.isReady i).2.isDone i = w.isDone i := by
  cases found : w.tasks[i]? with
  | none => simp [isDone, isReady, updateTask, readClock, found]
  | some t => rw [isDone_of_found (isReady_found found).2, isDone_of_found found, Task.poll_isDone]

theorem runAlone_alike {alike : Option WaitReason → Option WaitReason → Prop}
    (likeness : WaitReason.Likeness alike) (confined : Confined alike execute) {s s' : Task ρ}
    (pair : s.Alike alike s') (found : w.tasks[i]? = some s') :
    ∃ after, (s.runAlone execute).2.1.Alike alike after ∧
      (w.runTask execute i).2.tasks[i]? = some after ∧
      (w.runTask execute i).2.effectsOf i = w.effectsOf i ++ (s.runAlone execute).2.2 := by
  have alone : (lone s : World ρ ε).tasks[0]? = some s := rfl
  obtain ⟨answer, after, after', effects, paired, lonely, ran⟩ :=
    runTask_parallel likeness confined alone found pair
  have same : s.runAlone execute = (answer, after, effects) := by
    rw [Task.runAlone, lonely]
    simp [lone, updateTask, emitAll, Function.comp_def]
  rw [ran, same]
  refine ⟨after', paired, found_updateTask found _ effects, ?_⟩
  rw [effectsOf_emitAll]
  rfl

/-- As far as its course goes, a task does what it does when it is only run, as often as the course
runs it, in any world. -/
theorem course_driven {enter : ρ → Script ρ ε} (secluded : ∀ object, (enter object).Secluded)
    (depth : Nat) (latches : List Bool) {alone : World ρ ε} {j : Nat} {t : Task ρ}
    (found : alone.tasks[j]? = some t) (steps : Nat) :
    ∃ runs s, let driven := (alone.answerAll (.replicate runs (.run j enter depth))).2
      driven.tasks[j]? = some s ∧
      (t.course (Script.execute enter depth) latches steps).1.Alike
        WaitReason.EndsAlike s ∧
      driven.effectsOf j =
        alone.effectsOf j ++ (t.course (Script.execute enter depth) latches steps).2 := by
  have confined := Script.execute_confined WaitReason.likeness_ended
    (fun object => (secluded object).1) (fun object => (secluded object).2.indifferent _) depth
  induction steps with
  | zero => exact ⟨0, t, found, .refl WaitReason.likeness_ended t, (List.append_nil _).symm⟩
  | succ steps ih =>
    obtain ⟨runs, s, reached, pair, effects⟩ := ih
    simp only [Task.course, Task.advance]
    generalize t.course (Script.execute enter depth) latches steps = past at pair effects ⊢
    have polled := past.1.poll_alike latches past.1.due
    generalize past.1.poll latches past.1.due = asked at polled ⊢
    have paired := polled.meet pair
    cases goes : asked.1 with
    | false => exact ⟨runs, s, reached, paired, by simpa using effects⟩
    | true =>
      obtain ⟨after, alike, later, emitted⟩ :=
        runAlone_alike WaitReason.likeness_ended confined paired reached
      refine ⟨runs + 1, after, ?_⟩
      rw [List.replicate_succ', answerAll_append]
      refine ⟨later, alike, ?_⟩
      simp only [↓reduceIte]
      rw [← List.append_assoc, ← effects]
      exact emitted

end World
end ResumableTasks
