import ResumableTasks.Script.Routine
import ResumableTasks.Proofs.RunPhases
import ResumableTasks.Proofs.ScriptTrace
import ResumableTasks.Proofs.TaskLifecycle
/-!
Routine code that keeps to its own task. Two contexts are twins if they agree on all that belongs to
the task: its frames, its object, its pending cancellation. Independent code does the same in both,
emits the same into both worlds and leaves twins behind, whatever else is in the two worlds. So does
a whole run. The wait reasons need only be alike, in a sense that is left open here, as long as the
code does not look at them.
-/
namespace ResumableTasks

variable {ρ ε α β : Type}

/-- The operations that read and change nothing but the task at work and the log. -/
def Op.OnOwnTask : Op ρ ε → Prop
  | .emit _ | .look | .object | .become _ | .restore _ | .suspend .. | .pause _ | .exit _
  | .errorExit _ | .checkpoint | .frameStep _ => True
  | _ => False

/-- Going on from a look at the context in the same way, whichever of two alike wait reasons it
shows. -/
def Op.Indifferent (alike : Option WaitReason → Option WaitReason → Prop) :
    (op : Op ρ ε) → (op.Reply → Script ρ ε) → Prop
  | .look, next => ∀ (view : ContextView ρ) (reason other : Option WaitReason), alike reason other →
    next { view with reason := other } = next { view with reason }
  | _, _ => True

namespace Script

def Independent : Script ρ ε → Prop
  | .done _ => True
  | .act op next => op.OnOwnTask ∧ ∀ reply, (next reply).Independent
  | .call body next => (body ()).Independent ∧ ∀ reply, (next reply).Independent
  | .invoke _ next => ∀ reply, (next reply).Independent

def Indifferent (alike : Option WaitReason → Option WaitReason → Prop) : Script ρ ε → Prop
  | .done _ => True
  | .act op next => op.Indifferent alike next ∧ ∀ reply, (next reply).Indifferent alike
  | .call body next => (body ()).Indifferent alike ∧ ∀ reply, (next reply).Indifferent alike
  | .invoke _ next => ∀ reply, (next reply).Indifferent alike

def Blind (script : Script ρ ε) : Prop := script.Indifferent fun _ _ => True

/-- Code that keeps to its own task and asks nothing but what its frames say. -/
def Secluded (script : Script ρ ε) : Prop := script.Independent ∧ script.Blind

theorem Blind.indifferent {script : Script ρ ε} (blind : script.Blind)
    (alike : Option WaitReason → Option WaitReason → Prop) : script.Indifferent alike := by
  induction script with
  | done => trivial
  | act op next ih =>
    refine ⟨?_, fun reply => ih reply (blind.2 reply)⟩
    cases op with
    | look => exact fun view reason other _ => blind.1 view reason other trivial
    | _ => trivial
  | call body next bodyIh ih => exact ⟨bodyIh () blind.1, fun reply => ih reply (blind.2 reply)⟩
  | invoke object next ih => exact fun reply => ih reply (blind reply)

theorem indifferent_eq (script : Script ρ ε) : script.Indifferent Eq := by
  induction script with
  | done => trivial
  | act op next ih =>
    refine ⟨?_, ih⟩
    cases op with
    | look =>
      rintro view reason _ rfl
      rfl
    | _ => trivial
  | call body next bodyIh ih => exact ⟨bodyIh (), ih⟩
  | invoke object next ih => exact ih

end Script

namespace World

def emitAll (w : World ρ ε) (task : Nat) (effects : List ε) : World ρ ε :=
  { w with log := w.log ++ effects.map (Prod.mk task) }

theorem emitAll_nil (w : World ρ ε) (task : Nat) : w.emitAll task [] = w := by
  simp [emitAll]

theorem emitAll_emitAll (w : World ρ ε) (task : Nat) (first later : List ε) :
    (w.emitAll task first).emitAll task later = w.emitAll task (first ++ later) := by
  simp [emitAll]

end World

/-- What may be said of wait reasons that are as good as each other for a run. -/
structure WaitReason.Likeness (alike : Option WaitReason → Option WaitReason → Prop) : Prop where
  refl : ∀ reason, alike reason reason
  ended : ∀ reason other, alike reason other → ended other = ended reason

theorem WaitReason.likeness_eq : Likeness Eq :=
  ⟨fun _ => rfl, fun _ _ same => congrArg ResumableTasks.ended same.symm⟩

def WaitReason.EndsAlike (reason other : Option WaitReason) : Prop := ended other = ended reason

theorem WaitReason.likeness_ended : Likeness EndsAlike :=
  ⟨fun _ => rfl, fun _ _ same => same⟩

namespace Context

/-- Contexts that agree on what belongs to the task at work. -/
structure Twin (alike : Option WaitReason → Option WaitReason → Prop) (cx cx' : Context ρ ε) :
    Prop where
  id : cx'.id = cx.id
  frames : cx'.frames = cx.frames
  object : cx'.object = cx.object
  reason : alike cx.reason cx'.reason
  cancel : cx'.cancelRequest = cx.cancelRequest

/-- Code has run in two contexts with the same result and the same effects. -/
structure Parallel (alike : Option WaitReason → Option WaitReason → Prop) (cx cx' : Context ρ ε)
    (ran ran' : α × Context ρ ε) : Prop where
  result : ran'.1 = ran.1
  twin : ran.2.Twin alike ran'.2
  task : ran.2.task = cx.task ∧ ran'.2.task = cx'.task
  world : ∃ effects, ran.2.world = cx.world.emitAll cx.task effects ∧
    ran'.2.world = cx'.world.emitAll cx'.task effects

def Confined (alike : Option WaitReason → Option WaitReason → Prop)
    (code : Context ρ ε → α × Context ρ ε) : Prop :=
  ∀ cx cx', cx.Twin alike cx' → Parallel alike cx cx' (code cx) (code cx')

variable {alike : Option WaitReason → Option WaitReason → Prop}

section

variable {cx cx' d d' : Context ρ ε}

theorem Twin.withFrames (twin : cx.Twin alike cx') (frames : FrameStack ρ) :
    Twin alike { cx with frames } { cx' with frames } :=
  ⟨twin.id, rfl, twin.object, twin.reason, twin.cancel⟩

theorem Twin.withObject (twin : cx.Twin alike cx') (object : ρ) :
    Twin alike { cx with object } { cx' with object } :=
  ⟨twin.id, twin.frames, rfl, twin.reason, twin.cancel⟩

theorem Twin.withReason (twin : cx.Twin alike cx') {reason reason' : Option WaitReason}
    (likely : alike reason reason') :
    Twin alike { cx with reason } { cx' with reason := reason' } :=
  ⟨twin.id, twin.frames, twin.object, likely, twin.cancel⟩

theorem Twin.violation (twin : cx.Twin alike cx') (detail : String) :
    cx'.violation detail = cx.violation detail := by
  simp only [Context.violation, twin.id, twin.frames]

theorem Parallel.still (twin : d.Twin alike d') (result : α)
    (same : d.task = cx.task ∧ d.world = cx.world)
    (same' : d'.task = cx'.task ∧ d'.world = cx'.world) :
    Parallel alike cx cx' (result, d) (result, d') where
  result := rfl
  twin := twin
  task := ⟨same.1, same'.1⟩
  world := ⟨[], by rw [World.emitAll_nil, same.2], by rw [World.emitAll_nil, same'.2]⟩

theorem Parallel.andThen {ran ran' : α × Context ρ ε} (parallel : Parallel alike cx cx' ran ran')
    (later : α → Context ρ ε → β × Context ρ ε) (confined : Confined alike (later ran.1)) :
    Parallel alike cx cx' (later ran.1 ran.2) (later ran'.1 ran'.2) := by
  obtain ⟨effects, world, world'⟩ := parallel.world
  have next := confined ran.2 ran'.2 parallel.twin
  obtain ⟨more, later_world, later_world'⟩ := next.world
  rw [parallel.result]
  refine ⟨next.result, next.twin, ⟨next.task.1.trans parallel.task.1,
    next.task.2.trans parallel.task.2⟩, effects ++ more, ?_, ?_⟩
  · rw [later_world, world, parallel.task.1, World.emitAll_emitAll]
  · rw [later_world', world', parallel.task.2, World.emitAll_emitAll]

theorem Parallel.map {ran ran' : α × Context ρ ε} (parallel : Parallel alike cx cx' ran ran')
    (f : α → β) : Parallel alike cx cx' (f ran.1, ran.2) (f ran'.1, ran'.2) :=
  ⟨congrArg f parallel.result, parallel.twin, parallel.task, parallel.world⟩

theorem Parallel.mono {ran ran' : α × Context ρ ε} (parallel : Parallel alike d d' ran ran')
    (same : d.task = cx.task ∧ d.world = cx.world)
    (same' : d'.task = cx'.task ∧ d'.world = cx'.world) : Parallel alike cx cx' ran ran' := by
  obtain ⟨effects, world, world'⟩ := parallel.world
  refine ⟨parallel.result, parallel.twin, ⟨parallel.task.1.trans same.1,
    parallel.task.2.trans same'.1⟩, effects, ?_, ?_⟩
  · rw [world, same.1, same.2]
  · rw [world', same'.1, same'.2]

end

def afterBody (ending : Ending α) (cx : Context ρ ε) : Ending (Called α) × Context ρ ε :=
  match ending with
  | .panicked payload => (.panicked payload, cx)
  | ending =>
    match cx.frames.leave with
    | .error misuse => (.ofMisuse misuse, cx)
    | .ok (departure, frames) =>
      let cx := { cx with frames }
      (cx.answer departure ending, cx)

theorem call_eq (body : Context ρ ε → Ending α × Context ρ ε) (cx : Context ρ ε) :
    call body cx =
      afterBody (body { cx with frames := cx.frames.enter }).1
        (body { cx with frames := cx.frames.enter }).2 := by
  unfold call afterBody
  rcases body { cx with frames := cx.frames.enter } with ⟨_ | _ | _, left⟩ <;> rfl

theorem afterBody_confined (ending : Ending α) :
    Confined alike (afterBody (ρ := ρ) (ε := ε) ending) := by
  intro cx cx' twin
  have answers (departure : Departure) (frames : FrameStack ρ) :
      answer { cx' with frames } departure ending = answer { cx with frames } departure ending := by
    simp only [answer, (twin.withFrames frames).violation]
  cases ending with
  | panicked payload => exact .still twin _ ⟨rfl, rfl⟩ ⟨rfl, rfl⟩
  | returned | unwound =>
    simp only [afterBody, twin.frames]
    split
    · exact .still twin _ ⟨rfl, rfl⟩ ⟨rfl, rfl⟩
    · next departure frames _ =>
      rw [answers]
      exact .still (twin.withFrames frames) _ ⟨rfl, rfl⟩ ⟨rfl, rfl⟩

theorem call_confined {body : Context ρ ε → Ending α × Context ρ ε}
    (confined : Confined alike body) : Confined alike (call body) := by
  intro cx cx' twin
  have ran := confined _ _ (twin.withFrames cx.frames.enter)
  rw [call_eq, call_eq, twin.frames]
  exact (ran.andThen afterBody (afterBody_confined _)).mono ⟨rfl, rfl⟩ ⟨rfl, rfl⟩

theorem suspend_confined (suspension : Suspension) (marker : UInt32) (locals : Captured ρ) :
    Confined (ε := ε) alike fun cx => cx.suspend suspension marker locals := by
  intro cx cx' twin
  simp only [suspend, twin.frames]
  split
  · exact .still twin _ ⟨rfl, rfl⟩ ⟨rfl, rfl⟩
  · split
    · next frames _ => exact .still (twin.withFrames frames) _ ⟨rfl, rfl⟩ ⟨rfl, rfl⟩
    · exact .still twin _ ⟨rfl, rfl⟩ ⟨rfl, rfl⟩

theorem pause_confined (likeness : WaitReason.Likeness alike) (reason : WaitReason) :
    Confined (ε := ε) (ρ := ρ) alike fun cx => cx.pause reason := by
  intro cx cx' twin
  have checked : cx'.checkpoint = cx.checkpoint := by simp only [checkpoint, twin.cancel]
  have entered (kept : Option WaitReason) (frames : FrameStack ρ) :
      Twin alike { cx with reason := kept, frames } { cx' with reason := kept, frames } :=
    (twin.withReason (likeness.refl kept)).withFrames frames
  simp only [pause, twin.frames, checked]
  split
  · exact .still twin _ ⟨rfl, rfl⟩ ⟨rfl, rfl⟩
  · split
    · exact .still (entered _ _) _ ⟨rfl, rfl⟩ ⟨rfl, rfl⟩
    · split
      · exact .still (entered _ _) _ ⟨rfl, rfl⟩ ⟨rfl, rfl⟩
      · exact .still (entered _ _) _ ⟨rfl, rfl⟩ ⟨rfl, rfl⟩
      · split
        · exact .still (entered _ _) _ ⟨rfl, rfl⟩ ⟨rfl, rfl⟩
        · exact .still (entered _ _) _ ⟨rfl, rfl⟩ ⟨rfl, rfl⟩

theorem afterInvoked_confined (outer : ρ) (ending : Ending (Called Unit)) :
    Confined (ε := ε) alike (afterInvoked outer ending) := by
  intro cx cx' twin
  rcases ending with (_ | suspension) | _ | _
  · exact .still (twin.withObject outer) _ ⟨rfl, rfl⟩ ⟨rfl, rfl⟩
  · have passed := suspend_confined suspension 1 (.routine cx.object) _ _ (twin.withObject outer)
    simp only [afterInvoked, twin.object]
    exact (passed.map Ending.leave).mono ⟨rfl, rfl⟩ ⟨rfl, rfl⟩
  · exact .still (twin.withObject outer) _ ⟨rfl, rfl⟩ ⟨rfl, rfl⟩
  · exact .still (twin.withObject outer) _ ⟨rfl, rfl⟩ ⟨rfl, rfl⟩

theorem invokeFrame_confined {execute : Context ρ ε → Ending Unit × Context ρ ε}
    (confined : Confined alike execute) (given : ρ) :
    Confined alike (invokeFrame execute given) := by
  intro cx cx' twin
  rw [invokeFrame_eq, invokeFrame_eq, twin.frames, twin.object]
  generalize (if cx.frames.rewinding then cx.frames.take .routine else .ok (given, cx.frames) :
    Except FrameError (ρ × FrameStack ρ)) = target
  rcases target with _ | ⟨target, frames⟩
  · exact .still twin _ ⟨rfl, rfl⟩ ⟨rfl, rfl⟩
  · have called := call_confined confined _ _ ((twin.withFrames frames).withObject target)
    exact (called.andThen (afterInvoked cx.object) (afterInvoked_confined cx.object _)).mono
      ⟨rfl, rfl⟩ ⟨rfl, rfl⟩

end Context

open Context

variable {alike : Option WaitReason → Option WaitReason → Prop}

namespace Op

theorem perform_confined (likeness : WaitReason.Likeness alike)
    (execute : Context ρ ε → Ending Unit × Context ρ ε) {op : Op ρ ε} (own : op.OnOwnTask)
    (unseeing : op ≠ .look) : Confined alike fun cx => op.perform execute cx := by
  intro cx cx' twin
  cases op with
  | look => exact absurd rfl unseeing
  | emit entry =>
    exact ⟨rfl, ⟨twin.id, twin.frames, twin.object, twin.reason, twin.cancel⟩, ⟨rfl, rfl⟩,
      [entry], rfl, rfl⟩
  | object =>
    exact ⟨twin.object, twin, ⟨rfl, rfl⟩, [], (World.emitAll_nil ..).symm,
      (World.emitAll_nil ..).symm⟩
  | become state => exact .still (twin.withObject state) _ ⟨rfl, rfl⟩ ⟨rfl, rfl⟩
  | restore type =>
    simp only [perform, Context.restore, twin.frames]
    exact .still twin _ ⟨rfl, rfl⟩ ⟨rfl, rfl⟩
  | suspend suspension marker locals => exact suspend_confined suspension marker _ cx cx' twin
  | pause reason => exact pause_confined likeness reason cx cx' twin
  | exit | errorExit =>
    exact .still (twin.withReason (likeness.refl _)) _ ⟨rfl, rfl⟩ ⟨rfl, rfl⟩
  | checkpoint =>
    simp only [perform, Context.checkpoint, twin.cancel]
    exact .still twin _ ⟨rfl, rfl⟩ ⟨rfl, rfl⟩
  | frameStep step =>
    simp only [perform, twin.frames]
    exact .still (twin.withFrames _) _ ⟨rfl, rfl⟩ ⟨rfl, rfl⟩
  | now | stackDepth | recoverDepth | release | cancel | isReady | inspect | run | spawn | live =>
    exact own.elim

end Op

namespace Script

theorem exec_confined (likeness : WaitReason.Likeness alike)
    {execute : Context ρ ε → Ending Unit × Context ρ ε} (confined : Confined alike execute)
    {script : Script ρ ε} (independent : script.Independent)
    (indifferent : script.Indifferent alike) : Confined alike (script.exec execute) := by
  induction script with
  | done ending => exact fun cx cx' twin => .still twin ending ⟨rfl, rfl⟩ ⟨rfl, rfl⟩
  | act op next ih =>
    intro cx cx' twin
    have goes_on := fun reply => ih reply (independent.2 reply) (indifferent.2 reply)
    by_cases looks : op = .look
    · subst looks
      -- The views differ in the wait reason only, and the code goes on regardless of it.
      have same : next cx'.view = next cx.view := by
        have seen := indifferent.1 cx.view cx.reason cx'.reason twin.reason
        simpa only [view, twin.id, twin.frames, twin.cancel] using seen
      simp only [exec, Op.perform, same]
      exact goes_on _ cx cx' twin
    · have performed := Op.perform_confined likeness execute independent.1 looks cx cx' twin
      exact performed.andThen (fun reply => (next reply).exec execute) (goes_on _)
  | call body next bodyIh ih =>
    intro cx cx' twin
    have called := call_confined (bodyIh () independent.1 indifferent.1) cx cx' twin
    exact called.andThen (fun reply => (next reply).exec execute)
      (ih _ (independent.2 _) (indifferent.2 _))
  | invoke object next ih =>
    intro cx cx' twin
    have called := call_confined (invokeFrame_confined confined object) cx cx' twin
    exact called.andThen (fun reply => (next reply).exec execute)
      (ih _ (independent _) (indifferent _))

theorem execute_confined (likeness : WaitReason.Likeness alike) {enter : ρ → Script ρ ε}
    (independent : ∀ object, (enter object).Independent)
    (indifferent : ∀ object, (enter object).Indifferent alike) (depth : Nat) :
    Confined alike (execute enter depth) := by
  induction depth with
  | zero => exact fun cx cx' twin => .still twin _ ⟨rfl, rfl⟩ ⟨rfl, rfl⟩
  | succ depth ih =>
    intro cx cx' twin
    have ran := exec_confined likeness ih (independent cx.object) (indifferent cx.object)
      cx cx' twin
    simp only [execute, twin.object]
    exact ran.map fun ending => ending.map fun _ => ()

end Script

namespace Settlement

section

variable {id : TaskId} {unwound : Bool} {ending : Ending α} {frames : FrameStack ρ}
  {reason reason' : Option WaitReason}

theorem ofFrames_returned (entry : frames.depth = 1) (live : frames.pausing = false) :
    ofFrames id unwound frames reason =
      if unwound then violation id "entry unwound with Pause but the fiber is not pausing"
      else if frames.retained > 0 then
        violation id ("rewind did not reach the suspended frames (" ++
          toString frames.retained ++ " still retained)")
      else .finished ((ended reason).getD (.ok .ok)) := by
  simp only [ofFrames, FrameStack.finish, entry, live, ne_eq, not_true_eq_false, ↓reduceIte,
    Bool.not_false, Bool.and_true, Bool.true_and, decide_eq_true_eq, Bool.false_eq_true]
  rcases reason with _ | _ | _ | _ <;> rfl

theorem ofEnding_exit :
    ofEnding (α := α) id (.unwound .exit) frames reason =
      .finished ((ended reason).getD (.ok .ok)) := by
  rcases reason with _ | _ | _ | _ <;> rfl

theorem ofFrames_of_ended (same : ended reason' = ended reason) :
    ofFrames id unwound frames reason' =
      match ofFrames id unwound frames reason with
      | .suspended rest _ => .suspended rest reason'
      | settlement => settlement := by
  by_cases entry : frames.depth = 1
  · cases pausing : frames.pausing with
    | true =>
      rw [ofFrames_pausing entry pausing, ofFrames_pausing entry pausing, same]
      cases ended reason <;> rfl
    | false =>
      rw [ofFrames_returned entry pausing, ofFrames_returned entry pausing, same]
      split
      · rfl
      · split <;> rfl
  · rw [ofFrames_away entry, ofFrames_away entry]
    rfl

theorem ofEnding_of_ended (same : ended reason' = ended reason) :
    ofEnding id ending frames reason' =
      match ofEnding id ending frames reason with
      | .suspended rest _ => .suspended rest reason'
      | settlement => settlement := by
  rcases ending with value | unwind | payload
  · exact ofFrames_of_ended same
  · cases unwind with
    | pause => exact ofFrames_of_ended same
    | exit => rw [ofEnding_exit, ofEnding_exit, same]
    | cancelled request => rfl
    | failed error =>
      simp only [ofEnding]
      split <;> rfl
  · rfl

end

end Settlement

inductive Task.Alike (alike : Option WaitReason → Option WaitReason → Prop) (t : Task ρ) :
    Task ρ → Prop
  | waiting {reason : Option WaitReason} (likely : alike t.reason reason) :
    Alike alike t { t with reason }

namespace Task

theorem Alike.refl (likeness : WaitReason.Likeness alike) (t : Task ρ) : t.Alike alike t :=
  .waiting (likeness.refl t.reason)

theorem conclude_alike {t t' : Task ρ} (pair : t.Alike alike t') (outcome : TaskOutcome) :
    t'.conclude outcome = t.conclude outcome := by
  cases pair
  rfl

theorem settle_alike (likeness : WaitReason.Likeness alike) {t t' : Task ρ}
    (pair : t.Alike alike t') {reason reason' : Option WaitReason} (likely : alike reason reason')
    (id : TaskId) (ending : Ending α) (frames : FrameStack ρ) :
    (t'.settle (.ofEnding id ending frames reason')).1 =
      (t.settle (.ofEnding id ending frames reason)).1 ∧
    (t.settle (.ofEnding id ending frames reason)).2.Alike alike
      (t'.settle (.ofEnding id ending frames reason')).2 := by
  rw [Settlement.ofEnding_of_ended (likeness.ended _ _ likely)]
  cases settled : Settlement.ofEnding id ending frames reason with
  | finished outcome =>
    refine ⟨rfl, ?_⟩
    simp only [settle, conclude_alike pair]
    exact .refl likeness _
  | failed error =>
    refine ⟨rfl, ?_⟩
    simp only [settle, conclude_alike pair]
    exact .refl likeness _
  | misused misuse => exact ⟨rfl, pair⟩
  | suspended rest kept =>
    obtain ⟨-, -, -, -, -, rfl⟩ := Settlement.ofEnding_suspended_iff.mp settled
    cases pair
    exact ⟨rfl, .waiting likely⟩

end Task

namespace World

theorem updateTask_emitAll (w : World ρ ε) (task : Nat) (change : Task ρ → Task ρ)
    (effects : List ε) :
    (w.emitAll task effects).updateTask task change =
      (w.updateTask task change).emitAll task effects := rfl

theorem cancelOf_updateTask {w : World ρ ε} {task : Nat} {t : Task ρ}
    (found : w.tasks[task]? = some t) (change : Task ρ → Task ρ) :
    (w.updateTask task change).cancelOf task = (change t).cancel := by
  simp [cancelOf, updateTask, found]

theorem updateTask_found {w : World ρ ε} {task : Nat} {t : Task ρ}
    (found : w.tasks[task]? = some t) (change : Task ρ → Task ρ) :
    w.updateTask task change = w.updateTask task fun _ => change t :=
  updateTask_congr found rfl

theorem updateTask_same {w : World ρ ε} {task : Nat} {t : Task ρ}
    (found : w.tasks[task]? = some t) : (w.updateTask task fun _ => t) = w := by
  have unchanged := updateTask_found found id
  rw [updateTask, List.modify_id] at unchanged
  exact unchanged.symm

def started (w : World ρ ε) (task : Nat) (t : Task ρ) (frames : FrameStack ρ) : Context ρ ε :=
  { task, id := t.id, classifier := t.classifier, frames, reason := t.reason, object := t.entry,
    world := w.updateTask task ({ · with state := .running }) }

theorem runTask_started {execute : Context ρ ε → Ending α × Context ρ ε} {w : World ρ ε}
    {task : Nat} {t : Task ρ} {frames : FrameStack ρ} (found : w.tasks[task]? = some t)
    (admitted : t.admission = .entered frames) {ran : Ending α × Context ρ ε}
    (executed : execute (w.started task t frames) = ran) {effects : List ε}
    (emitted : ran.2.world = (w.started task t frames).world.emitAll task effects) :
    w.runTask execute task =
      let settled := { t with state := .running, entry := ran.2.object }.settle
        (.ofEnding t.id ran.1 ran.2.frames ran.2.reason)
      (settled.1, (w.updateTask task fun _ => settled.2).emitAll task effects) := by
  have entered : w.entry task = some (w.started task t frames) := by
    simp only [entry, found, Option.bind_some, admitted, started]
  rw [runTask_entered entered, executed]
  simp only [emitted, started, updateTask_emitAll, updateTask_updateTask]
  rw [updateTask_found found, Task.settle_answer]
  rfl

/-- A run of a task does the same in any two worlds, to the task and to the log, and nothing to
anything else. -/
theorem runTask_parallel (likeness : WaitReason.Likeness alike)
    {execute : Context ρ ε → Ending α × Context ρ ε} (confined : Confined alike execute)
    {w w' : World ρ ε} {i j : Nat} {t t' : Task ρ} (found : w.tasks[i]? = some t)
    (found' : w'.tasks[j]? = some t') (pair : t.Alike alike t') :
    ∃ answer s s' effects, s.Alike alike s' ∧
      w.runTask execute i = (answer, (w.updateTask i fun _ => s).emitAll i effects) ∧
      w'.runTask execute j = (answer, (w'.updateTask j fun _ => s').emitAll j effects) := by
  have admission : t'.admission = t.admission := by
    cases pair
    rfl
  cases admitted : t.admission with
  | refused error =>
    refine ⟨.failed error, t, t', [], pair, ?_, ?_⟩
    · simp only [runTask, found, admitted, emitAll_nil, updateTask_same found]
    · simp only [runTask, found', admission, admitted, emitAll_nil, updateTask_same found']
  | cancelled reason =>
    refine ⟨.done, t.conclude (.cancelled reason), t'.conclude (.cancelled reason), [], ?_, ?_, ?_⟩
    · rw [Task.conclude_alike pair]
      exact .refl likeness _
    · simp only [runTask, found, admitted, emitAll_nil]
      rw [updateTask_found found]
    · simp only [runTask, found', admission, admitted, emitAll_nil]
      rw [updateTask_found found']
  | misused misuse =>
    refine ⟨.misused misuse, { t with state := .running }, { t' with state := .running }, [],
      ?_, ?_, ?_⟩
    · cases pair with
      | waiting likely => exact .waiting likely
    · simp only [runTask, found, admitted, emitAll_nil]
      rw [updateTask_found found]
    · simp only [runTask, found', admission, admitted, emitAll_nil]
      rw [updateTask_found found']
  | entered frames =>
    rw [admitted] at admission
    cases pair with
    | @waiting reason likely =>
      have twin : Twin alike (w.started i t frames)
          (w'.started j { t with reason := reason } frames) := by
        refine ⟨rfl, rfl, rfl, likely, ?_⟩
        simp only [cancelRequest, started, cancelOf_updateTask found, cancelOf_updateTask found']
      have ran := confined _ _ twin
      obtain ⟨effects, emitted, emitted'⟩ := ran.world
      have flown (entry : ρ) : Task.Alike alike { t with state := .running, entry }
          { t with state := .running, entry, reason } := .waiting likely
      have settled := Task.settle_alike likeness (flown (execute (w.started i t frames)).2.object)
        ran.twin.reason t.id (execute (w.started i t frames)).1
        (execute (w.started i t frames)).2.frames
      refine ⟨_, _, _, effects, settled.2, runTask_started found admitted rfl emitted, ?_⟩
      rw [runTask_started found' admission rfl emitted', ran.result, ran.twin.frames,
        ran.twin.object, ← settled.1]

end World

namespace Script

theorem Secluded.done (ending : Ending Value) : Secluded (ρ := ρ) (ε := ε) (.done ending) :=
  ⟨trivial, trivial⟩

theorem Secluded.act {op : Op ρ ε} {next : op.Reply → Script ρ ε} (own : op.OnOwnTask)
    (blind : op.Indifferent (fun _ _ => True) next) (later : ∀ reply, (next reply).Secluded) :
    Secluded (.act op next) :=
  ⟨⟨own, fun reply => (later reply).1⟩, blind, fun reply => (later reply).2⟩

theorem Secluded.call {body : Unit → Script ρ ε} {next : Ending (Called Value) → Script ρ ε}
    (inner : (body ()).Secluded) (later : ∀ reply, (next reply).Secluded) :
    Secluded (.call body next) :=
  ⟨⟨inner.1, fun reply => (later reply).1⟩, inner.2, fun reply => (later reply).2⟩

theorem enterMarked_secluded {type : ValueType} {start : Script ρ ε}
    {resume : UInt32 → Option (Locals type → Script ρ ε)} (fresh : start.Secluded)
    (rewound : ∀ marker again, resume marker = some again → ∀ locals, (again locals).Secluded) :
    (enterMarked start resume).Secluded := by
  refine .act trivial (fun _ _ _ _ => rfl) fun view => ?_
  dsimp only
  split
  · exact fresh
  · split
    · exact .done _
    · next again resumes =>
      refine .act trivial trivial fun reply => ?_
      cases reply with
      | error unwind => exact .done _
      | ok locals =>
        dsimp only
        split
        · exact rewound _ again resumes _
        · exact .done _

theorem goOn_secluded (marker : UInt32) (locals : Value) {next : α → Script ρ ε}
    (later : ∀ value, (next value).Secluded) (reply : Ending (Called α)) :
    (goOn marker locals next reply).Secluded := by
  rcases reply with (value | suspension) | unwind | payload
  · exact later value
  · exact .act trivial trivial fun _ => .done _
  · exact .done _
  · exact .done _

end Script

namespace Routine

variable {τ : ValueType}

theorem code_secluded (r : Routine ε τ) :
    (∀ locals, (r.code locals : Script ρ ε).Secluded) ∧
    ∀ marker again, (r.resume marker : Option (Locals τ → Script ρ ε)) = some again →
      ∀ locals, (again locals).Secluded := by
  induction r with
  | finish result => exact ⟨fun _ => .done _, by simp [resume]⟩
  | effect entry change rest ih =>
    exact ⟨fun locals => .act trivial trivial fun _ => ih.1 (change locals), ih.2⟩
  | suspend marker reason rest ih =>
    have paused (locals : Locals _) : Script.Secluded (ρ := ρ) (ε := ε)
        (.act (.pause (reason locals)) (.goOn marker locals fun _ => rest.code locals)) :=
      .act trivial trivial (Script.goOn_secluded marker locals fun _ => ih.1 locals)
    refine ⟨paused, fun sought again resumes locals => ?_⟩
    simp only [resume] at resumes
    split at resumes
    · rw [← Option.some.inj resumes]
      exact paused locals
    · exact ih.2 sought again resumes locals
  | call marker callee args absorb rest calleeIh ih =>
    have called (locals : Locals _) : Script.Secluded (ρ := ρ) (ε := ε)
        (.call (fun _ => .enterMarked (callee.code (args locals)) callee.resume)
          (.goOn marker locals fun value => rest.code (absorb locals value))) :=
      .call (Script.enterMarked_secluded (calleeIh.1 (args locals)) calleeIh.2)
        (Script.goOn_secluded marker locals fun value => ih.1 (absorb locals value))
    refine ⟨called, fun sought again resumes locals => ?_⟩
    simp only [resume] at resumes
    split at resumes
    · rw [← Option.some.inj resumes]
      exact called locals
    · exact ih.2 sought again resumes locals

theorem woven_secluded (r : Routine ε τ) (args : Locals τ) :
    (r.woven args : Script ρ ε).Secluded :=
  Script.enterMarked_secluded (r.code_secluded.1 args) r.code_secluded.2

end Routine
end ResumableTasks
