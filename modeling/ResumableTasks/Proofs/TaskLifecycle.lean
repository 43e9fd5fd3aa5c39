import ResumableTasks.Calls
import ResumableTasks.Proofs.RunPhases
/-!
The lifecycle of a task under every sequence of runs and cancellations. Between two calls a task is
settled: what its state, frame stack, wait reason and exit say fits together. While its routine runs
it is in flight, and the routine may run, cancel and ask any task, its own included; a settled task
stays settled all the same, and one that is done never changes again.
-/
namespace ResumableTasks

variable {ρ ε α : Type}

theorem WaitReason.isTerminal_poll (reason : WaitReason) (latches : List Bool) (now : Nat)
    (task : TaskId) : (reason.poll latches now task).2.isTerminal = reason.isTerminal := by
  cases reason <;> rfl

theorem ended_poll {reason : WaitReason} (open_ended : ended (some reason) = none)
    (latches : List Bool) (now : Nat) (task : TaskId) :
    ended (some (reason.poll latches now task).2) = none := by
  cases reason with
  | yield | on => rfl
  | done => cases open_ended

namespace Task

/-- What holds of a task between two calls. -/
structure Settled (t : Task ρ) : Prop where
  not_running : t.state ≠ .running
  new : t.state = .new → t.exit = none ∧ t.reason = none ∧ t.frames = {}
  suspended : t.state = .suspended → t.exit = none ∧ t.frames.depth = 0 ∧
    t.frames.pausing = false ∧ ∀ reason, t.reason = some reason → reason.isTerminal = false
  done : t.state = .done → ∃ outcome, t.exit = some outcome ∧
    t.reason = some (.done outcome) ∧ t.frames = {} ∧
    ∀ latches now, (t.poll latches now).1 = false

/-- Settled, or in flight without an outcome. -/
def Sound (t : Task ρ) : Prop := t.Settled ∨ t.state = .running ∧ t.exit = none

/-- What a task may turn into while something else, or nothing, runs it to a settlement. -/
structure Becomes (t t' : Task ρ) : Prop where
  sound : t'.Sound
  running : t'.state = .running ↔ t.state = .running
  done : t.state = .done → t' = t

theorem Becomes.refl {t : Task ρ} (sound : t.Sound) : t.Becomes t := ⟨sound, Iff.rfl, fun _ => rfl⟩

theorem Becomes.trans {a b c : Task ρ} (first : a.Becomes b) (second : b.Becomes c) :
    a.Becomes c where
  sound := second.sound
  running := second.running.trans first.running
  done ended := by
    have same : b = a := first.done ended
    rw [second.done (same ▸ ended), same]

theorem created_settled (id : TaskId) (entry : ρ) (classifier : Nat) :
    Settled { id, entry, classifier } where
  not_running := by simp
  new _ := ⟨rfl, rfl, rfl⟩
  suspended := by simp
  done := by simp

theorem conclude_settled (t : Task ρ) (outcome : TaskOutcome) : (t.conclude outcome).Settled where
  not_running := by simp [conclude]
  new := by simp [conclude]
  suspended := by simp [conclude]
  done _ := ⟨outcome, rfl, rfl, rfl, fun _ _ => rfl⟩

theorem settle_settled (t : Task ρ) (unfinished : t.exit = none) (id : TaskId)
    (ending : Ending α) (frames : FrameStack ρ) (reason : Option WaitReason) :
    (t.settle (.ofEnding id ending frames reason)).2.Settled := by
  rcases settled : Settlement.ofEnding id ending frames reason with
    outcome | error | ⟨rest, kept⟩ | misuse
  · exact conclude_settled t outcome
  · exact conclude_settled t (.err error)
  · obtain ⟨-, -, -, unended, rfl, rfl⟩ := Settlement.ofEnding_suspended_iff.mp settled
    constructor
    · simp [settle]
    · simp [settle]
    · intro _
      exact ⟨unfinished, rfl, rfl, ended_eq_none_iff.mp unended⟩
    · simp [settle]
  · exact absurd settled (Settlement.ofEnding_ne_misused misuse)

theorem requestCancel_becomes {t : Task ρ} (sound : t.Sound) (reason : CancelReason) :
    t.Becomes (t.requestCancel reason).2 := by
  by_cases finished : t.state = .done
  · simpa [requestCancel, isDone_eq, finished] using Becomes.refl sound
  · have open_task : ¬ t.isDone = true := by
      simpa [isDone_eq] using finished
    obtain ⟨recorded, changed⟩ :
        ∃ recorded, (t.requestCancel reason).2 = { t with cancel := some recorded } :=
      ⟨_, congrArg Prod.snd (if_neg open_task)⟩
    rw [changed]
    refine ⟨?_, Iff.rfl, fun ended => absurd ended finished⟩
    rcases sound with settled | inFlight
    · exact .inl ⟨settled.not_running, settled.new, settled.suspended,
        fun ended => absurd ended finished⟩
    · exact .inr inFlight

theorem poll_becomes {t : Task ρ} (sound : t.Sound) (latches : List Bool) (now : Nat) :
    t.Becomes (t.poll latches now).2 := by
  have unchanged : (t.poll latches now).2 = t → t.Becomes (t.poll latches now).2 := by
    intro same
    rw [same]
    exact Becomes.refl sound
  cases state : t.state with
  | new => exact unchanged (by simp [poll, state])
  | running => exact unchanged (by simp [poll, state])
  | done => exact unchanged (by simp [poll, state])
  | suspended =>
    cases requested : t.isCancelRequested with
    | true => exact unchanged (by simp [poll, state, requested])
    | false =>
      cases waiting : t.reason with
      | none => exact unchanged (by simp [poll, state, requested, waiting])
      | some reason =>
        have asked : (t.poll latches now).2 =
            { t with reason := some (reason.poll latches now t.id).2 } := by
          simp [poll, state, requested, waiting]
        have settled : t.Settled := by
          rcases sound with settled | ⟨running, _⟩
          · exact settled
          · simp [state] at running
        obtain ⟨unfinished, unwound, live, unended⟩ := settled.suspended state
        rw [asked]
        refine ⟨.inl ⟨by simp [state], by simp [state], fun _ => ⟨unfinished, unwound, live, ?_⟩,
          by simp [state]⟩, Iff.rfl, by simp [state]⟩
        intro later same
        rw [← Option.some.inj same, WaitReason.isTerminal_poll]
        exact unended reason waiting

structure Steady (P : Task ρ → Prop) : Prop where
  requested : ∀ (t : Task ρ) (reason : CancelReason), P t → P (t.requestCancel reason).2
  polled : ∀ (t : Task ρ) (latches : List Bool) (now : Nat), P t → P (t.poll latches now).2

theorem steady_of {P : Task ρ → Prop}
    (requested : ∀ (t : Task ρ) (request : CancelReason), P t → P { t with cancel := some request })
    (polled : ∀ (t : Task ρ) (reason : WaitReason) (latches : List Bool) (now : Nat),
      t.state = .suspended → t.reason = some reason → P t →
        P { t with reason := some (reason.poll latches now t.id).2 }) : Steady P where
  requested t reason holds := by
    unfold requestCancel
    split
    · exact holds
    · exact requested t _ holds
  polled t latches now holds := by
    unfold poll
    split
    · exact holds
    · exact holds
    · exact holds
    · next suspended =>
      split
      · exact holds
      · split
        · exact holds
        · next reason waiting => exact polled t reason latches now suspended waiting holds

/-- A sound task is refused while it runs and once it is done, ends at once if it was cancelled
before its first run, and is entered otherwise: its stack is never wound already. -/
theorem Sound.admission_cases {t : Task ρ} (sound : t.Sound) :
    (t.state = .running ∧ ∃ error, t.admission = .refused error) ∨
    (t.state = .done ∧ ∃ error, t.admission = .refused error ∧ error.kind = .taskDone ∧
      error.context.task = some t.id) ∨
    (t.state = .new ∧ ∃ reason, t.admission = .cancelled reason) ∨
    ((t.state = .new ∨ t.state = .suspended) ∧ t.exit = none ∧
      ∃ frames, t.admission = .entered frames) := by
  rcases sound with settled | ⟨running, _⟩
  · cases state : t.state with
    | running => exact absurd state settled.not_running
    | done =>
      have refused : t.admission = .refused
          (({ kind := .taskDone, message := some "task is done and cannot be re-entered" } :
            Error).withTask t.id) := by
        simp only [admission, state]
      exact .inr (.inl ⟨rfl, _, refused, rfl, rfl⟩)
    | new =>
      obtain ⟨unfinished, _, empty⟩ := settled.new state
      cases requested : t.cancel with
      | some reason => exact .inr (.inr (.inl ⟨rfl, reason, by simp [admission, state, requested]⟩))
      | none =>
        exact .inr (.inr (.inr ⟨.inl rfl, unfinished, _,
          admission_of_unwound (by simp [empty]) (.inr ⟨state, requested⟩)⟩))
    | suspended =>
      obtain ⟨unfinished, unwound, _⟩ := settled.suspended state
      exact .inr (.inr (.inr ⟨.inr rfl, unfinished, _, admission_of_unwound unwound (.inl state)⟩))
  · have refused : t.admission = .refused
        ((Error.protocol "run() is already in flight").withTask t.id) := by
      simp only [admission, running]
    exact .inl ⟨running, _, refused⟩

end Task

namespace World

def Sound (w : World ρ ε) : Prop := ∀ (i : Nat) (t : Task ρ), w.tasks[i]? = some t → t.Sound

/-- Task by task, what the second world holds is what the first one's may turn into. -/
def Becomes (w w' : World ρ ε) : Prop :=
  ∀ i : Nat, Option.Rel Task.Becomes w.tasks[i]? w'.tasks[i]?

theorem Becomes.of_tasks_eq {w w' : World ρ ε} (sound : w.Sound) (same : w'.tasks = w.tasks) :
    w.Becomes w' := by
  intro i
  rw [same]
  cases found : w.tasks[i]? with
  | none => exact .none
  | some t => exact .some (Task.Becomes.refl (sound i t found))

theorem Becomes.refl {w : World ρ ε} (sound : w.Sound) : w.Becomes w :=
  Becomes.of_tasks_eq sound rfl

theorem Becomes.trans {a b c : World ρ ε} (first : a.Becomes b) (second : b.Becomes c) :
    a.Becomes c := by
  intro i
  have one := first i
  have two := second i
  revert one two
  generalize a.tasks[i]? = x
  generalize b.tasks[i]? = y
  generalize c.tasks[i]? = z
  intro one two
  cases one with
  | none =>
    cases two
    exact .none
  | some one =>
    cases two with
    | some two => exact .some (one.trans two)

theorem Becomes.at_task {w w' : World ρ ε} (becomes : w.Becomes w') {i : Nat} {t : Task ρ}
    (found : w.tasks[i]? = some t) : ∃ t', w'.tasks[i]? = some t' ∧ t.Becomes t' := by
  have related := becomes i
  rw [found] at related
  generalize w'.tasks[i]? = later at related
  cases related with
  | some step => exact ⟨_, rfl, step⟩

theorem Becomes.sound {w w' : World ρ ε} (becomes : w.Becomes w') : w'.Sound := by
  intro i t found
  have related := becomes i
  rw [found] at related
  generalize w.tasks[i]? = earlier at related
  cases related with
  | some step => exact step.sound

theorem updateTask_becomes {w : World ρ ε} (sound : w.Sound) (task : Nat)
    {change : Task ρ → Task ρ}
    (allowed : ∀ t, w.tasks[task]? = some t → t.Becomes (change t)) :
    w.Becomes (w.updateTask task change) := by
  intro i
  simp only [updateTask, List.getElem?_modify]
  cases found : w.tasks[i]? with
  | none => exact .none
  | some t =>
    by_cases here : task = i
    · subst here
      simpa using Option.Rel.some (allowed t found)
    · simpa [here] using Option.Rel.some (Task.Becomes.refl (sound i t found))

theorem cancel_becomes {w : World ρ ε} (sound : w.Sound) (task : Nat) (reason : CancelReason) :
    w.Becomes (w.cancel task reason).2 :=
  updateTask_becomes sound task fun t found =>
    Task.requestCancel_becomes (sound task t found) reason

theorem isReady_becomes {w : World ρ ε} (sound : w.Sound) (task : Nat) :
    w.Becomes (w.isReady task).2 := by
  have read : w.Becomes w.readClock.2 := Becomes.of_tasks_eq sound rfl
  exact read.trans (updateTask_becomes read.sound task fun t found =>
    Task.poll_becomes (read.sound task t found) _ _)

theorem spawn_becomes {w : World ρ ε} (sound : w.Sound) (task : Nat) :
    w.Becomes (w.spawn task) := by
  refine Becomes.of_tasks_eq sound ?_
  unfold spawn
  split <;> rfl

end World

namespace Context

/-- A piece of routine code under which every task of a sound world becomes what it may. -/
def Respects (code : Context ρ ε → α × Context ρ ε) : Prop :=
  ∀ cx : Context ρ ε, cx.world.Sound → cx.world.Becomes (code cx).2.world

theorem call_world (body : Context ρ ε → Ending α × Context ρ ε) (cx : Context ρ ε) :
    (call body cx).2.world = (body { cx with frames := cx.frames.enter }).2.world := by
  unfold call
  split
  · next ran => rw [ran]
  · next ran =>
    rw [ran]
    split <;> rfl

theorem suspend_world (cx : Context ρ ε) (suspension : Suspension) (marker : UInt32)
    (locals : Captured ρ) : (cx.suspend suspension marker locals).2.world = cx.world := by
  unfold suspend
  split
  · rfl
  · split <;> rfl

theorem pause_world (cx : Context ρ ε) (reason : WaitReason) :
    (cx.pause reason).2.world = cx.world := by
  simp only [pause]
  split
  · rfl
  · split
    · rfl
    · split
      · rfl
      · rfl
      · split <;> rfl

theorem stackDepth_tasks (cx : Context ρ ε) (trace : CallTrace) :
    (cx.stackDepth trace).2.world.tasks = cx.world.tasks := rfl

theorem recoverDepth_tasks (cx : Context ρ ε) (trace : CallTrace) :
    (cx.recoverDepth trace).2.world.tasks = cx.world.tasks := by
  have counted := stackDepth_tasks cx trace
  unfold recoverDepth
  split
  · next ran => rwa [ran] at counted
  · next ran => rwa [ran] at counted
  · next ran =>
    rw [ran] at counted
    split <;> exact counted

theorem call_respects {body : Context ρ ε → Ending α × Context ρ ε} (respects : Respects body) :
    Respects (call body) := by
  intro cx sound
  rw [call_world]
  exact respects { cx with frames := cx.frames.enter } sound

theorem invokeFrame_respects {execute : Context ρ ε → Ending Unit × Context ρ ε}
    (respects : Respects execute) (given : ρ) : Respects (invokeFrame execute given) := by
  intro cx sound
  simp only [invokeFrame]
  split
  · exact World.Becomes.refl sound
  · next target frames _ =>
    have called := call_respects respects { cx with frames, object := target } sound
    split
    · exact called
    · rwa [suspend_world]
    · exact called
    · exact called

end Context

namespace World

theorem Sound.start {w : World ρ ε} (sound : w.Sound) {task : Nat} {t : Task ρ}
    (found : w.tasks[task]? = some t) (unfinished : t.exit = none) :
    (w.updateTask task ({ · with state := .running })).Sound := by
  intro i other same
  simp only [updateTask, List.getElem?_modify] at same
  by_cases here : task = i
  · subst here
    simp only [found, ↓reduceIte, Option.map_eq_map, Option.map_some, Option.some.injEq] at same
    exact .inr (same ▸ ⟨rfl, unfinished⟩)
  · simp only [here, ↓reduceIte, id_map'] at same
    exact sound i other same

theorem Becomes.settle {w w' : World ρ ε} {task : Nat} {t : Task ρ}
    (found : w.tasks[task]? = some t) (idle : t.state = .new ∨ t.state = .suspended)
    (during : (w.updateTask task ({ · with state := .running })).Becomes w')
    {change : Task ρ → Task ρ} (settles : ∀ flown, flown.exit = none → (change flown).Settled) :
    w.Becomes (w'.updateTask task change) := by
  intro i
  have step := during i
  simp only [updateTask, List.getElem?_modify] at step ⊢
  by_cases here : task = i
  · subst here
    simp only [found, ↓reduceIte, Option.map_eq_map, Option.map_some] at step ⊢
    generalize w'.tasks[task]? = later at step ⊢
    obtain _ | ⟨flown⟩ := later
    · cases step
    · obtain ⟨flight⟩ := step
      -- Nobody else settles a task in flight, so its exit is still to be set.
      have running := flight.running.mpr rfl
      have unfinished : flown.exit = none := by
        rcases flight.sound with settled | ⟨_, unfinished⟩
        · exact absurd running settled.not_running
        · exact unfinished
      have settled := settles _ unfinished
      have idle_not_running : t.state ≠ .running := by rcases idle with h | h <;> simp [h]
      refine .some ⟨.inl settled, iff_of_false settled.not_running idle_not_running, ?_⟩
      intro ended
      rcases idle with h | h <;> simp [h] at ended
  · simpa [here] using step

theorem runTask_settles {execute : Context ρ ε → Ending α × Context ρ ε}
    (respects : Context.Respects execute) {w : World ρ ε} (sound : w.Sound) (task : Nat) :
    w.Becomes (w.runTask execute task).2 ∧
      ∀ misuse, (w.runTask execute task).1 ≠ .misused misuse := by
  cases found : w.tasks[task]? with
  | none => simp [runTask, found, Becomes.refl sound]
  | some t =>
    rcases (sound task t found).admission_cases with ⟨_, error, admitted⟩ |
      ⟨_, error, admitted, _, _⟩ | ⟨new, reason, admitted⟩ | ⟨idle, unfinished, frames, admitted⟩
    · simp [runTask, found, admitted, Becomes.refl sound]
    · simp [runTask, found, admitted, Becomes.refl sound]
    · simp only [runTask, found, admitted, ne_eq, reduceCtorEq, not_false_eq_true, implies_true,
        and_true]
      refine updateTask_becomes sound task fun other same => ?_
      obtain rfl : t = other := Option.some.inj (found.symm.trans same)
      exact ⟨.inl (Task.conclude_settled t _), by simp [Task.conclude, new], by simp [new]⟩
    · simp only [runTask, found, admitted]
      constructor
      · have during := respects
          { task, id := t.id, classifier := t.classifier, frames, reason := t.reason,
            object := t.entry, world := w.updateTask task ({ · with state := .running }) }
          (sound.start found unfinished)
        refine Becomes.settle found idle during fun flown unexited => ?_
        apply Task.settle_settled
        exact unexited
      · intro misuse
        cases settled : Settlement.ofEnding _ _ _ _ with
        | finished | failed | suspended => simp [Task.settle]
        | misused other => exact absurd settled (Settlement.ofEnding_ne_misused other)

theorem runTask_done {w : World ρ ε} {task : Nat} {t : Task ρ} (sound : t.Sound)
    (found : w.tasks[task]? = some t) (done : t.state = .done)
    (execute : Context ρ ε → Ending α × Context ρ ε) :
    ∃ error, w.runTask execute task = (.failed error, w) ∧ error.kind = .taskDone ∧
      error.context.task = some t.id := by
  rcases sound.admission_cases with ⟨running, _⟩ | ⟨_, error, admitted, kind, named⟩ |
    ⟨new, _⟩ | ⟨idle, _⟩
  · simp [done] at running
  · exact ⟨error, by simp [runTask, found, admitted], kind, named⟩
  · simp [done] at new
  · simp [done] at idle

theorem cancel_done {w : World ρ ε} {task : Nat} {t : Task ρ}
    (found : w.tasks[task]? = some t) (done : t.state = .done) (reason : CancelReason) :
    w.cancel task reason = (false, w) := by
  have refused : t.requestCancel reason = (false, t) := by
    simp [Task.requestCancel, Task.isDone_eq, done]
  have same : w.tasks.modify task (fun t => (t.requestCancel reason).2) = w.tasks := by
    apply List.ext_getElem?
    intro i
    rw [List.getElem?_modify]
    by_cases here : task = i
    · subst here
      simp [found, refused]
    · simp [here]
  simp [cancel, found, refused, updateTask, same]

end World

namespace Op

theorem perform_respects {execute : Context ρ ε → Ending Unit × Context ρ ε}
    (respects : Context.Respects execute) (op : Op ρ ε) :
    Context.Respects fun cx => op.perform execute cx := by
  intro cx sound
  have unchanged : World.Becomes cx.world cx.world := World.Becomes.refl sound
  cases op with
  | emit | now | release => exact World.Becomes.of_tasks_eq sound rfl
  | look | object | become | restore | exit | errorExit | checkpoint | inspect | live =>
    exact unchanged
  | frameStep => exact unchanged
  | suspend suspension marker locals =>
    simpa only [perform, Context.suspend_world] using unchanged
  | pause reason => simpa only [perform, Context.pause_world] using unchanged
  | stackDepth trace => exact World.Becomes.of_tasks_eq sound (Context.stackDepth_tasks cx trace)
  | recoverDepth trace =>
    exact World.Becomes.of_tasks_eq sound (Context.recoverDepth_tasks cx trace)
  | cancel task reason => exact World.cancel_becomes sound task reason
  | isReady task => exact World.isReady_becomes sound task
  | run task => exact (World.runTask_settles respects sound task).1
  | spawn task => exact World.spawn_becomes sound task

end Op

namespace Script

theorem exec_respects {execute : Context ρ ε → Ending Unit × Context ρ ε}
    (respects : Context.Respects execute) (script : Script ρ ε) :
    Context.Respects (script.exec execute) := by
  induction script with
  | done ending =>
    intro cx sound
    exact World.Becomes.refl sound
  | act op next ih =>
    intro cx sound
    have performed := Op.perform_respects respects op cx sound
    exact performed.trans (ih _ _ performed.sound)
  | call body next bodyIh ih =>
    intro cx sound
    have called := Context.call_respects (bodyIh ()) cx sound
    exact called.trans (ih _ _ called.sound)
  | invoke object next ih =>
    intro cx sound
    have called := Context.call_respects (Context.invokeFrame_respects respects object) cx sound
    exact called.trans (ih _ _ called.sound)

theorem execute_respects (enter : ρ → Script ρ ε) (depth : Nat) :
    Context.Respects (execute enter depth) := by
  induction depth with
  | zero =>
    intro cx sound
    exact World.Becomes.refl sound
  | succ depth ih =>
    intro cx sound
    exact exec_respects ih (enter cx.object) cx sound

end Script

namespace World

def Idle (w : World ρ ε) : Prop := ∀ (i : Nat) (t : Task ρ), w.tasks[i]? = some t → t.Settled

theorem Idle.sound {w : World ρ ε} (idle : w.Idle) : w.Sound :=
  fun i t found => .inl (idle i t found)

theorem Becomes.idle {w w' : World ρ ε} (becomes : w.Becomes w') (idle : w.Idle) : w'.Idle := by
  intro i t found
  have related := becomes i
  rw [found] at related
  cases earlier : w.tasks[i]? with
  | none =>
    rw [earlier] at related
    cases related
  | some before =>
    rw [earlier] at related
    cases related with
    | some step =>
      rcases step.sound with settled | ⟨running, _⟩
      · exact settled
      · exact absurd (step.running.mp running) (idle i before earlier).not_running

theorem addTask_cases {w : World ρ ε} {entry : ρ} {classifier i : Nat} {t : Task ρ}
    (found : (w.addTask entry classifier).tasks[i]? = some t) :
    w.tasks[i]? = some t ∨ t = { id := .ofIndex w.tasks.length, entry, classifier } := by
  rcases Nat.lt_trichotomy i w.tasks.length with old | new | beyond
  · rw [addTask, List.getElem?_append_left old] at found
    exact .inl found
  · simp only [addTask, new, List.getElem?_concat_length, Option.some.injEq] at found
    exact .inr found.symm
  · simp only [addTask] at found
    rw [List.getElem?_eq_none (by simp; omega)] at found
    exact absurd found (by simp)

theorem addTask_idle {w : World ρ ε} (idle : w.Idle) (entry : ρ) (classifier : Nat) :
    (w.addTask entry classifier).Idle := by
  intro i t found
  rcases addTask_cases found with old | rfl
  · exact idle i t old
  · exact Task.created_settled _ entry classifier

def Keeps (w w' : World ρ ε) : Prop :=
  ∀ (i : Nat) (t : Task ρ), w.tasks[i]? = some t → t.state = .done → w'.tasks[i]? = some t

theorem Becomes.keeps {w w' : World ρ ε} (becomes : w.Becomes w') : w.Keeps w' := by
  intro i t found done
  obtain ⟨t', later, step⟩ := becomes.at_task found
  rw [later, step.done done]

theorem answer_settles {w : World ρ ε} (idle : w.Idle) (call : TaskCall ρ ε) :
    (w.answer call).2.Idle ∧ w.Keeps (w.answer call).2 ∧
      ∀ misuse, (w.answer call).1 ≠ .ran (.misused misuse) := by
  cases call with
  | create entry classifier =>
    refine ⟨addTask_idle idle entry classifier, ?_, by simp [answer]⟩
    intro i t found _
    have old : i < w.tasks.length := (List.getElem?_eq_some_iff.mp found).1
    simpa [answer, addTask, List.getElem?_append_left old] using found
  | run task enter depth =>
    obtain ⟨becomes, live⟩ :=
      runTask_settles (Script.execute_respects enter depth) idle.sound task
    exact ⟨becomes.idle idle, becomes.keeps, by simpa [answer] using live⟩
  | cancel task reason =>
    have becomes := cancel_becomes idle.sound task reason
    exact ⟨becomes.idle idle, becomes.keeps, by simp [answer]⟩
  | ask task =>
    have becomes := isReady_becomes idle.sound task
    exact ⟨becomes.idle idle, becomes.keeps, by simp [answer]⟩

theorem answerAll_settles {w : World ρ ε} (idle : w.Idle) (calls : List (TaskCall ρ ε)) :
    (w.answerAll calls).2.Idle ∧ w.Keeps (w.answerAll calls).2 ∧
      ∀ misuse, .ran (.misused misuse) ∉ (w.answerAll calls).1 := by
  induction calls generalizing w with
  | nil => exact ⟨idle, fun i t found _ => found, by simp [answerAll]⟩
  | cons call rest ih =>
    obtain ⟨stays, frozen, live⟩ := answer_settles idle call
    obtain ⟨staysLater, frozenLater, liveLater⟩ := ih stays
    refine ⟨staysLater, fun i t found done => frozenLater i t (frozen i t found done) done, ?_⟩
    intro misuse member
    rcases List.mem_cons.mp member with now | later
    · exact live misuse now.symm
    · exact liveLater misuse later

def Has (w : World ρ ε) (task : Nat) (P : Task ρ → Prop) : Prop :=
  ∃ t, w.tasks[task]? = some t ∧ P t

theorem Has.updateTask {w : World ρ ε} {task : Nat} {P : Task ρ → Prop} (has : w.Has task P)
    (other : Nat) {change : Task ρ → Task ρ} (keeps : ∀ t, P t → P (change t)) :
    (w.updateTask other change).Has task P := by
  obtain ⟨t, found, holds⟩ := has
  by_cases here : other = task
  · subst here
    refine ⟨change t, ?_, keeps t holds⟩
    simp [World.updateTask, found]
  · refine ⟨t, ?_, holds⟩
    simp [World.updateTask, here, found]

theorem Has.asked {w : World ρ ε} {task : Nat} {P : Task ρ → Prop} (has : w.Has task P)
    (steady : Task.Steady P) {call : TaskCall ρ ε}
    (asks : ∀ other enter depth, call ≠ .run other enter depth) : (w.answer call).2.Has task P := by
  cases call with
  | create entry classifier =>
    obtain ⟨t, found, holds⟩ := has
    have old : task < w.tasks.length := (List.getElem?_eq_some_iff.mp found).1
    refine ⟨t, ?_, holds⟩
    simpa [answer, addTask, List.getElem?_append_left old] using found
  | run other enter depth => exact absurd rfl (asks other enter depth)
  | cancel other reason => exact has.updateTask other fun t holds => steady.requested t reason holds
  | ask other =>
    have read : w.readClock.2.Has task P := has
    exact read.updateTask other fun t holds => steady.polled t _ _ holds

theorem idle_of_empty (w : World ρ ε) : ({ w with tasks := [] } : World ρ ε).Idle := by
  intro i t found
  simp at found

theorem history_idle (w : World ρ ε) (calls : List (TaskCall ρ ε)) :
    ({ w with tasks := [] }.answerAll calls).2.Idle :=
  (answerAll_settles (idle_of_empty w) calls).1

/-- From a world without tasks, after every history of creations, runs, cancellations and questions:
each task is settled, no run has panicked, and a task that is done is not entered again, refuses to
be cancelled and stays as it is. -/
theorem task_lifecycle_invariant (w : World ρ ε) (calls : List (TaskCall ρ ε)) :
    let past := { w with tasks := [] }.answerAll calls
    (∀ misuse, .ran (.misused misuse) ∉ past.1) ∧
    ∀ (i : Nat) (t : Task ρ), past.2.tasks[i]? = some t → t.Settled ∧ (t.state = .done →
      (∀ (α : Type) (execute : Context ρ ε → Ending α × Context ρ ε), ∃ error,
        past.2.runTask execute i = (.failed error, past.2) ∧ error.kind = .taskDone ∧
        error.context.task = some t.id) ∧
      (∀ reason, past.2.cancel i reason = (false, past.2)) ∧
      ∀ later, (past.2.answerAll later).2.tasks[i]? = some t) := by
  intro past
  have idle : past.2.Idle := history_idle w calls
  refine ⟨(answerAll_settles (idle_of_empty w) calls).2.2, fun i t found => ?_⟩
  refine ⟨idle i t found, fun done => ⟨?_, ?_, ?_⟩⟩
  · intro α execute
    exact runTask_done (idle.sound i t found) found done execute
  · exact cancel_done found done
  · intro later
    exact (answerAll_settles idle later).2.1 i t found done

end World

end ResumableTasks
