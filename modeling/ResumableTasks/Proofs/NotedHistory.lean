import ResumableTasks.Proofs.ConservedEntries
import ResumableTasks.Proofs.RunReport
import ResumableTasks.Proofs.ScriptTrace
/-!
What is noted of a whole history of a scheduler: of every call of its owner, and of the routine code
of every task that is run, by the owner, by the scheduler or by another routine. A statement about a
world and what was noted so far holds after every history if it survives each place at which
something is noted or done to a task.
-/
namespace ResumableTasks

variable {ρ ε α β : Type}

/-- What is noted of a request to stop, of a task that is to be run, and of any other operation of a
routine. -/
structure Notary (ρ ε β : Type) where
  cancel : World ρ ε → Nat → CancelReason → List β := fun _ _ _ => []
  run : World ρ ε → Nat → List β := fun _ _ => []
  watch : Context ρ ε → Op ρ ε → List β := fun _ _ => []

namespace Notary

def runNotes (n : Notary ρ ε β) (inner : Context ρ ε → List β) (w : World ρ ε) (task : Nat) :
    List β :=
  n.run w task ++ (w.entry task).elim [] inner

def tracer (n : Notary ρ ε β) (inner : Context ρ ε → List β) : Tracer ρ ε β where
  op
    | cx, .cancel task reason => n.cancel cx.world task reason
    | cx, .run task => n.runNotes inner cx.world task
    | cx, op => n.watch cx op

def executeNotes (n : Notary ρ ε β) (enter : ρ → Script ρ ε) : Nat → Context ρ ε → List β
  | 0, _ => []
  | depth + 1, cx =>
    (enter cx.object).trace (n.tracer (n.executeNotes enter depth)) (Script.execute enter depth)
      (n.executeNotes enter depth) cx

def dispatchNotes (n : Notary ρ ε β) (enter : ρ → Script ρ ε) (depth task : Nat) (w : World ρ ε) :
    List β :=
  if w.isDone task then []
  else
    let asked := w.isReady task
    if asked.1 then n.runNotes (n.executeNotes enter depth) asked.2 task else []

def turnNotes (n : Notary ρ ε β) (enter : ρ → Script ρ ε) (depth : Nat) (w : World ρ ε) : List β :=
  w.timedOut.2.take?.elim [] fun taken => n.dispatchNotes enter depth taken.1 taken.2

def loopNotes (n : Notary ρ ε β) (enter : ρ → Script ρ ε) (depth : Nat) :
    Nat → Nat → World ρ ε → List β
  | 0, _, _ => []
  | turns + 1, misses, w =>
    match w.turn (Script.execute enter depth) misses with
    | .stopped _ => []
    | .next later v => n.turnNotes enter depth w ++ n.loopNotes enter depth turns later v

def serveNotes (n : Notary ρ ε β) (w : World ρ ε) : SchedulerCall ρ ε → List β
  | .onTask (.run task enter depth) => n.runNotes (n.executeNotes enter depth) w task
  | .onTask (.cancel task reason) => n.cancel w task reason
  | .drive enter depth turns => n.loopNotes enter depth turns 0 w.beginRun
  | _ => []

def historyNotes (n : Notary ρ ε β) : World ρ ε → List (SchedulerCall ρ ε) → List β
  | _, [] => []
  | w, call :: rest => n.serveNotes w call ++ (w.serve call).elim [] (n.historyNotes · rest)

end Notary

/-- A task is at work in a sound world, and this holds of the notes and the world. -/
structure Context.AtWork (Inv : List β → World ρ ε → Prop) (log : List β) (cx : Context ρ ε) :
    Prop where
  sound : cx.world.Sound
  flight : cx.world.Has cx.task fun t => t.state = .running
  holds : Inv log cx.world

/-- The statement survives each place at which something is noted or done to a task. -/
structure Notary.Upholds (n : Notary ρ ε β) (Inv : List β → World ρ ε → Prop) : Prop where
  still : ∀ {log : List β} {w w' : World ρ ε}, Inv log w → w'.tasks = w.tasks →
    w.clock.now ≤ w'.clock.now → Inv log w'
  created : ∀ {log : List β} {w : World ρ ε} (entry : ρ) (classifier : Nat), Inv log w →
    Inv log (w.addTask entry classifier)
  asked : ∀ {log : List β} {w : World ρ ε} (task : Nat), Inv log w → Inv log (w.isReady task).2
  cancelled : ∀ {log : List β} {w : World ρ ε} (task : Nat) (reason : CancelReason), Inv log w →
    Inv (log ++ n.cancel w task reason) (w.cancel task reason).2
  watched : ∀ {log : List β} {cx : Context ρ ε} (op : Op ρ ε), cx.AtWork Inv log →
    Inv (log ++ n.watch cx op) cx.world
  started : ∀ {log : List β} {w : World ρ ε} {task : Nat} {cx : Context ρ ε}, Inv log w →
    w.entry task = some cx → Inv (log ++ n.run w task) cx.world
  refused : ∀ {log : List β} {w : World ρ ε} {task : Nat}, w.Sound → Inv log w →
    w.entry task = none → ∀ execute : Context ρ ε → Ending Unit × Context ρ ε,
      Inv (log ++ n.run w task) (w.runTask execute task).2
  settled : ∀ {log : List β} {w : World ρ ε} {task : Nat} (entry : ρ) (settlement : Settlement ρ),
    Inv log w → w.Has task (fun t => t.state = .running) →
      Inv log (w.updateTask task fun t => ({ t with entry }.settle settlement).2)

namespace Context

theorem call_task (body : Context ρ ε → Ending α × Context ρ ε) (cx : Context ρ ε) :
    (call body cx).2.task = (body { cx with frames := cx.frames.enter }).2.task := by
  unfold call
  split
  · next ran => rw [ran]
  · next ran =>
    rw [ran]
    split <;> rfl

theorem suspend_task (cx : Context ρ ε) (suspension : Suspension) (marker : UInt32)
    (locals : Captured ρ) : (cx.suspend suspension marker locals).2.task = cx.task := by
  unfold suspend
  split
  · rfl
  · split <;> rfl

theorem pause_task (cx : Context ρ ε) (reason : WaitReason) :
    (cx.pause reason).2.task = cx.task := by
  simp only [pause]
  split
  · rfl
  · split
    · rfl
    · split
      · rfl
      · rfl
      · split <;> rfl

theorem recoverDepth_task (cx : Context ρ ε) (trace : CallTrace) :
    (cx.recoverDepth trace).2.task = cx.task := by
  have counted : (cx.stackDepth trace).2.task = cx.task := rfl
  unfold recoverDepth
  split
  · next ran => rwa [ran] at counted
  · next ran => rwa [ran] at counted
  · next ran =>
    rw [ran] at counted
    split <;> exact counted

theorem recoverDepth_clock (cx : Context ρ ε) (trace : CallTrace) :
    (cx.recoverDepth trace).2.world.clock = cx.world.clock := by
  have counted : (cx.stackDepth trace).2.world.clock = cx.world.clock := rfl
  unfold recoverDepth
  split
  · next ran => rwa [ran] at counted
  · next ran => rwa [ran] at counted
  · next ran =>
    rw [ran] at counted
    split <;> exact counted

theorem afterInvoked_world (outer : ρ) (ending : Ending (Called Unit)) (cx : Context ρ ε) :
    (afterInvoked outer ending cx).2.world = cx.world := by
  rcases ending with (_ | suspension) | _ | _
  · rfl
  · exact suspend_world ..
  · rfl
  · rfl

theorem afterInvoked_task (outer : ρ) (ending : Ending (Called Unit)) (cx : Context ρ ε) :
    (afterInvoked outer ending cx).2.task = cx.task := by
  rcases ending with (_ | suspension) | _ | _
  · rfl
  · exact suspend_task ..
  · rfl
  · rfl

variable {Inv : List β → World ρ ε → Prop} {log : List β}

theorem AtWork.congr {cx cx' : Context ρ ε} (work : cx.AtWork Inv log) (task : cx'.task = cx.task)
    (world : cx'.world = cx.world) : cx'.AtWork Inv log where
  sound := world ▸ work.sound
  flight := by
    rw [task, world]
    exact work.flight
  holds := world ▸ work.holds

theorem AtWork.next {later : List β} {cx cx' : Context ρ ε} (work : cx.AtWork Inv log)
    (becomes : cx.world.Becomes cx'.world) (task : cx'.task = cx.task)
    (holds : Inv later cx'.world) : cx'.AtWork Inv later where
  sound := becomes.sound
  flight := by
    obtain ⟨t, found, running⟩ := work.flight
    obtain ⟨t', found', step⟩ := becomes.at_task found
    rw [task]
    exact ⟨t', found', step.running.mpr running⟩
  holds := holds

/-- The code stays with its task, and with its notes it carries the statement true. -/
def Carries (Inv : List β → World ρ ε → Prop) (notes : Context ρ ε → List β)
    (code : Context ρ ε → α × Context ρ ε) : Prop :=
  ∀ (cx : Context ρ ε) (log : List β), cx.AtWork Inv log →
    (code cx).2.AtWork Inv (log ++ notes cx) ∧ (code cx).2.task = cx.task

theorem call_carries (t : Tracer ρ ε β) (silent : ∀ cx, t.leaving cx = [])
    {inner : Context ρ ε → List β} {body : Context ρ ε → Ending α × Context ρ ε}
    (carries : Carries Inv inner body) : Carries Inv (callTrace t inner body) (call body) := by
  intro cx log work
  obtain ⟨during, same⟩ := carries { cx with frames := cx.frames.enter } log (work.congr rfl rfl)
  rw [callTrace_silent t silent, call_task]
  exact ⟨during.congr (call_task body cx) (call_world body cx), same⟩

theorem invokeFrame_carries (t : Tracer ρ ε β) (silent : ∀ cx, t.leaving cx = [])
    {inner : Context ρ ε → List β} {execute : Context ρ ε → Ending Unit × Context ρ ε}
    (carries : Carries Inv inner execute) (given : ρ) :
    Carries Inv (invokeFrameTrace t inner execute given) (invokeFrame execute given) := by
  intro cx log work
  rw [invokeFrame_eq]
  unfold invokeFrameTrace
  split
  · rw [List.append_nil]
    exact ⟨work.congr rfl rfl, rfl⟩
  · next target frames _ =>
    have called := call_carries t silent carries { cx with frames, object := target } log
      (work.congr rfl rfl)
    dsimp only
    rw [afterInvoked_task]
    exact ⟨called.1.congr (afterInvoked_task ..) (afterInvoked_world ..), called.2⟩

end Context

open Context

variable {n : Notary ρ ε β} {Inv : List β → World ρ ε → Prop}

namespace World

theorem spawn_carries (upholds : n.Upholds Inv) {w : World ρ ε} {log : List β} (holds : Inv log w)
    (task : Nat) : Inv log (w.spawn task) := by
  unfold spawn
  split
  · exact holds
  · exact upholds.still holds rfl (Nat.le_refl _)

theorem entry_world {w : World ρ ε} {task : Nat} {cx : Context ρ ε}
    (entered : w.entry task = some cx) :
    cx.world = w.updateTask task ({ · with state := .running }) := by
  obtain ⟨t, -, admitted⟩ := Option.bind_eq_some_iff.mp entered
  split at admitted
  · rw [← Option.some.inj admitted]
  · cases admitted

theorem entry_flight {w : World ρ ε} {task : Nat} {cx : Context ρ ε}
    (entered : w.entry task = some cx) :
    cx.task = task ∧ cx.world.Has task fun t => t.state = .running := by
  obtain ⟨t, found, admitted⟩ := Option.bind_eq_some_iff.mp entered
  split at admitted
  · next frames admission =>
    obtain rfl := Option.some.inj admitted
    exact ⟨rfl, { t with state := .running }, by simp [updateTask, found], rfl⟩
  · cases admitted

theorem entry_atWork (upholds : n.Upholds Inv) {w : World ρ ε} (sound : w.Sound) {log : List β}
    (holds : Inv log w) {task : Nat} {cx : Context ρ ε} (entered : w.entry task = some cx) :
    cx.AtWork Inv (log ++ n.run w task) := by
  obtain ⟨own, flight⟩ := entry_flight entered
  rw [← own] at flight
  exact ⟨entry_sound sound entered, flight, upholds.started holds entered⟩

theorem runTask_carries (upholds : n.Upholds Inv)
    {execute : Context ρ ε → Ending Unit × Context ρ ε} {inner : Context ρ ε → List β}
    (carries : Carries Inv inner execute) {w : World ρ ε} (sound : w.Sound) {log : List β}
    (holds : Inv log w) (task : Nat) :
    Inv (log ++ n.runNotes inner w task) (w.runTask execute task).2 := by
  unfold Notary.runNotes
  cases entered : w.entry task with
  | none =>
    rw [Option.elim_none, List.append_nil]
    exact upholds.refused sound holds entered execute
  | some cx =>
    obtain ⟨ran, same⟩ := carries cx _ (entry_atWork upholds sound holds entered)
    have flown := ran.flight
    rw [same, (entry_flight entered).1] at flown
    rw [Option.elim_some, ← List.append_assoc, runTask_entered entered]
    exact upholds.settled _ _ ran.holds flown

end World

namespace Op

theorem perform_task (execute : Context ρ ε → Ending Unit × Context ρ ε) (op : Op ρ ε)
    (cx : Context ρ ε) : (op.perform execute cx).2.task = cx.task := by
  cases op with
  | suspend suspension marker locals => exact suspend_task ..
  | pause reason => exact pause_task ..
  | recoverDepth trace => exact recoverDepth_task ..
  | _ => rfl

theorem perform_carries (upholds : n.Upholds Inv)
    {execute : Context ρ ε → Ending Unit × Context ρ ε} (respects : Respects execute)
    {inner : Context ρ ε → List β} (carries : Carries Inv inner execute) (op : Op ρ ε) :
    Carries Inv (fun cx => (n.tracer inner).op cx op) fun cx => op.perform execute cx := by
  intro cx log work
  refine ⟨work.next (perform_respects respects op cx work.sound) (op.perform_task execute cx) ?_,
    op.perform_task execute cx⟩
  have unmoved (watch : (n.tracer inner).op cx op = n.watch cx op)
      (tasks : (op.perform execute cx).2.world.tasks = cx.world.tasks)
      (clock : cx.world.clock.now ≤ (op.perform execute cx).2.world.clock.now) :
      Inv (log ++ (n.tracer inner).op cx op) (op.perform execute cx).2.world := by
    rw [watch]
    exact upholds.still (upholds.watched op work) tasks clock
  cases op with
  | cancel task reason => exact upholds.cancelled task reason work.holds
  | run task => exact World.runTask_carries upholds carries work.sound work.holds task
  | isReady task =>
    exact upholds.asked task (upholds.watched (.isReady task) work)
  | suspend suspension marker locals =>
    have same := cx.suspend_world suspension marker (.value locals)
    exact unmoved rfl (congrArg World.tasks same) (Nat.le_of_eq (by rw [perform, same]))
  | pause reason =>
    have same := cx.pause_world reason
    exact unmoved rfl (congrArg World.tasks same) (Nat.le_of_eq (by rw [perform, same]))
  | recoverDepth trace =>
    have clock := cx.recoverDepth_clock trace
    exact unmoved rfl (cx.recoverDepth_tasks trace) (Nat.le_of_eq (by rw [perform, clock]))
  | spawn task => exact World.spawn_carries upholds (upholds.watched (.spawn task) work) task
  | now => exact unmoved rfl rfl (Nat.le_add_right ..)
  | _ => exact unmoved rfl rfl (Nat.le_refl _)

end Op

namespace Script

theorem trace_carries (upholds : n.Upholds Inv)
    {execute : Context ρ ε → Ending Unit × Context ρ ε} (respects : Respects execute)
    {inner : Context ρ ε → List β} (carries : Carries Inv inner execute) (script : Script ρ ε) :
    Carries Inv (script.trace (n.tracer inner) execute inner) (script.exec execute) := by
  -- Each node hands the notes that it extended to what comes after it.
  induction script with
  | done ending =>
    intro cx log work
    rw [trace, List.append_nil]
    exact ⟨work, rfl⟩
  | act op next ih =>
    intro cx log work
    obtain ⟨performed, same⟩ := op.perform_carries upholds respects carries cx log work
    obtain ⟨later, still⟩ := ih _ _ _ performed
    rw [trace, ← List.append_assoc]
    exact ⟨later, still.trans same⟩
  | call body next bodyIh ih =>
    intro cx log work
    obtain ⟨called, same⟩ := call_carries (n.tracer inner) (fun _ => rfl) (bodyIh ()) cx log work
    obtain ⟨later, still⟩ := ih _ _ _ called
    rw [trace, ← List.append_assoc]
    exact ⟨later, still.trans same⟩
  | invoke object next ih =>
    intro cx log work
    have invoked := invokeFrame_carries (n.tracer inner) (fun _ => rfl) carries object
    obtain ⟨called, same⟩ := call_carries (n.tracer inner) (fun _ => rfl) invoked cx log work
    obtain ⟨later, still⟩ := ih _ _ _ called
    rw [trace, ← List.append_assoc]
    exact ⟨later, still.trans same⟩

theorem execute_carries (upholds : n.Upholds Inv) (enter : ρ → Script ρ ε) (depth : Nat) :
    Carries Inv (n.executeNotes enter depth) (execute enter depth) := by
  induction depth with
  | zero =>
    intro cx log work
    rw [Notary.executeNotes, List.append_nil]
    exact ⟨work, rfl⟩
  | succ depth ih =>
    intro cx log work
    exact trace_carries upholds (execute_respects enter depth) ih (enter cx.object) cx log work

end Script

namespace World

variable {enter : ρ → Script ρ ε} {depth : Nat} {log : List β} {w : World ρ ε}

theorem verdict_clock (w : World ρ ε) (task : Nat) (answer : RunAnswer) :
    w.clock.now ≤ (w.verdict task answer).2.clock.now := by
  rcases w.verdict_world task answer with same | same
  · exact Nat.le_of_eq (by rw [same])
  · rw [same]
    exact Nat.le_add_right ..

theorem settle_clock (task : Nat) (w : World ρ ε) (verdict : Verdict) :
    (w.settle task verdict).2.clock = w.clock := by
  cases verdict <;> rfl

theorem timedOut_clock (w : World ρ ε) : w.clock.now ≤ w.timedOut.2.clock.now := by
  unfold timedOut
  split
  · exact Nat.le_refl _
  · exact Nat.le_add_right ..

theorem dispatch_carries (upholds : n.Upholds Inv) (sound : w.Sound) (holds : Inv log w)
    (task : Nat) :
    Inv (log ++ n.dispatchNotes enter depth task w)
      (w.dispatch (Script.execute enter depth) task).2 := by
  have asked := upholds.asked task holds
  unfold dispatch Notary.dispatchNotes
  split
  · rw [List.append_nil]
    exact upholds.still holds (settle_tasks ..) (Nat.le_of_eq (by rw [settle_clock]))
  · dsimp only
    split
    · have ran := runTask_carries upholds (Script.execute_carries upholds enter depth)
        (isReady_becomes sound task).sound asked task
      refine upholds.still ran ?_ ?_
      · rw [settle_tasks, verdict_tasks]
      · rw [settle_clock]
        exact verdict_clock ..
    · rw [List.append_nil]
      exact upholds.still asked (settle_tasks ..) (Nat.le_of_eq (by rw [settle_clock]))

theorem turned_carries (upholds : n.Upholds Inv) (sound : w.Sound) (holds : Inv log w)
    {misses later : Nat} {v : World ρ ε}
    (turned : w.Turned (Script.execute enter depth) misses later v) :
    v.Sound ∧ Inv (log ++ n.turnNotes enter depth w) v := by
  have checked_sound : w.timedOut.2.Sound := (Becomes.of_tasks_eq sound w.timedOut_tasks).sound
  have checked : Inv log w.timedOut.2 := upholds.still holds w.timedOut_tasks w.timedOut_clock
  have dispatched {task : Nat} {taken : World ρ ε}
      (took : w.timedOut.2.take? = some (task, taken)) :
      (taken.dispatch (Script.execute enter depth) task).2.Sound ∧
        Inv (log ++ n.turnNotes enter depth w)
          (taken.dispatch (Script.execute enter depth) task).2 := by
    obtain ⟨rest, -, same⟩ := take?_eq_some_iff.mp took
    have taken_sound : taken.Sound := same ▸ checked_sound
    have popped : Inv log taken := by
      rw [same]
      exact upholds.still checked rfl (Nat.le_refl _)
    rw [Notary.turnNotes, took, Option.elim_some]
    exact ⟨(dispatch_becomes (Script.execute_respects enter depth) taken_sound task).sound,
      dispatch_carries upholds taken_sound popped task⟩
  cases turned with
  | starved empty =>
    rw [Notary.turnNotes, empty, Option.elim_none, List.append_nil]
    exact ⟨checked_sound, upholds.still checked rfl (Nat.le_add_right ..)⟩
  | moved took | missed took => exact dispatched took
  | swept took =>
    obtain ⟨sound', holds'⟩ := dispatched took
    exact ⟨sound', upholds.still holds' rfl (Nat.le_add_right ..)⟩

theorem runTurns_carries (upholds : n.Upholds Inv) (sound : w.Sound) (holds : Inv log w)
    {turns misses : Nat} {w' : World ρ ε}
    (finished : runTurns (Script.execute enter depth) turns misses w = some w') :
    Inv (log ++ n.loopNotes enter depth turns misses w) w' := by
  induction turns generalizing misses w log with
  | zero => cases finished
  | succ turns ih =>
    rw [runTurns] at finished
    rw [Notary.loopNotes]
    rcases turn_cases (Script.execute enter depth) misses w with
      ⟨_, stops⟩ | ⟨_, stops⟩ | ⟨_, _, later, v, goes, turned⟩
    · rw [stops] at finished ⊢
      cases finished
      rwa [List.append_nil]
    · rw [stops] at finished ⊢
      cases finished
      rw [List.append_nil]
      exact upholds.still holds w.timedOut_tasks w.timedOut_clock
    · rw [goes] at finished ⊢
      obtain ⟨sound', holds'⟩ := turned_carries upholds sound holds turned
      rw [← List.append_assoc]
      exact ih sound' holds' finished

theorem serve_carries (upholds : n.Upholds Inv) (sound : w.Sound) (holds : Inv log w)
    {call : SchedulerCall ρ ε} {w' : World ρ ε} (served : w.serve call = some w') :
    Inv (log ++ n.serveNotes w call) w' := by
  have unnoted {call : SchedulerCall ρ ε} {w' : World ρ ε} (nothing : n.serveNotes w call = [])
      (holds : Inv log w') : Inv (log ++ n.serveNotes w call) w' := by
    rwa [nothing, List.append_nil]
  cases call with
  | onTask call =>
    cases served
    cases call with
    | create entry classifier => exact unnoted rfl (upholds.created entry classifier holds)
    | run task enter depth =>
      exact runTask_carries upholds (Script.execute_carries upholds enter depth) sound holds task
    | cancel task reason => exact upholds.cancelled task reason holds
    | ask task => exact unnoted rfl (upholds.asked task holds)
  | release latch =>
    cases served
    exact unnoted rfl (upholds.still holds rfl (Nat.le_refl _))
  | openScheduler settings choice =>
    cases served
    exact unnoted rfl (upholds.still holds rfl (Nat.le_add_right ..))
  | spawn task =>
    cases served
    exact unnoted rfl (spawn_carries upholds holds task)
  | spawnRoutine entry =>
    cases served
    have created := upholds.created entry w.scheduler.classifier holds
    exact unnoted rfl (spawn_carries upholds created w.tasks.length)
  | drive enter depth turns =>
    obtain ⟨⟨report, last⟩, finished, rfl⟩ := Option.map_eq_some_iff.mp served
    obtain ⟨stopped, ended, same⟩ := Option.map_eq_some_iff.mp finished
    cases same
    have begun_sound : w.beginRun.Sound := sound
    have begun : Inv log w.beginRun := upholds.still holds rfl (Nat.le_add_right ..)
    exact runTurns_carries upholds begun_sound begun ended

/-- What survives each place holds after every history. -/
theorem history_carries (upholds : n.Upholds Inv) (idle : w.Idle) (balanced : w.scheduler.Balanced)
    (holds : Inv log w) {calls : List (SchedulerCall ρ ε)} {past : World ρ ε}
    (served : w.serveAll calls = some past) : Inv (log ++ n.historyNotes w calls) past := by
  induction calls generalizing w log with
  | nil =>
    cases served
    rwa [Notary.historyNotes, List.append_nil]
  | cons call rest ih =>
    obtain ⟨v, first, later⟩ := Option.bind_eq_some_iff.mp served
    obtain ⟨idle', balanced'⟩ := serve_settles idle balanced call first
    rw [Notary.historyNotes, first, Option.elim_some, ← List.append_assoc]
    exact ih idle' balanced' (serve_carries upholds idle.sound holds first) later

end World

end ResumableTasks
