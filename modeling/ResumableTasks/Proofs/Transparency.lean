import Mathlib.Data.List.TakeWhile
import ResumableTasks.Proofs.TaskLifecycle
import ResumableTasks.Proofs.WovenRun
/-!
Suspension is transparent. A task over a woven routine is run until it is done: its runs together
have the effects of the direct execution, each once and in order, and there is one run more than
there are suspensions. A suspension on the terminal condition is the one exception, for it ends the
task where it stands.
-/
namespace ResumableTasks

open FrameStack Slot

variable {ρ ε : Type} {τ : ValueType}

namespace Event

def effect? : Event ε → Option ε
  | .effect entry => some entry
  | .wait _ => none

def isWait : Event ε → Bool
  | .effect _ => false
  | .wait _ => true

def ending? : Event ε → Option TaskOutcome
  | .effect _ => none
  | .wait reason => reason.outcome?

def reached (events : List (Event ε)) : List (Event ε) := events.takeWhile (·.ending?.isNone)

def suspensions (events : List (Event ε)) : Nat := (reached events).countP isWait

def effects (events : List (Event ε)) : List ε := (reached events).filterMap effect?

def outcome (events : List (Event ε)) : TaskOutcome := (events.findSome? ending?).getD (.ok .ok)

theorem reached_effects (entries : List ε) (events : List (Event ε)) :
    reached (entries.map .effect ++ events) = entries.map .effect ++ reached events := by
  induction entries with
  | nil => rfl
  | cons entry rest ih => simp [reached, ending?]

theorem suspensions_effects (entries : List ε) (events : List (Event ε)) :
    suspensions (entries.map .effect ++ events) = suspensions events := by
  have silent : (entries.map (Event.effect (ε := ε))).countP isWait = 0 := by
    simp [List.countP_eq_zero, isWait]
  rw [suspensions, reached_effects, List.countP_append, silent, Nat.zero_add, suspensions]

theorem effects_effects (entries : List ε) (events : List (Event ε)) :
    effects (entries.map .effect ++ events) = entries ++ effects events := by
  have kept : (entries.map (Event.effect (ε := ε))).filterMap effect? = entries := by
    simp [List.filterMap_map, Function.comp_def, effect?]
  rw [effects, reached_effects, List.filterMap_append, kept, effects]

theorem outcome_effects (entries : List ε) (events : List (Event ε)) :
    outcome (entries.map .effect ++ events) = outcome events := by
  have silent : (entries.map (Event.effect (ε := ε))).findSome? ending? = none := by
    simp [ending?]
  rw [outcome, List.findSome?_append, silent, Option.none_or, outcome]

theorem reached_wait (reason : WaitReason) (events : List (Event ε)) :
    reached (.wait reason :: events) =
      if reason.outcome?.isNone then .wait reason :: reached events else [] :=
  List.takeWhile_cons

theorem suspensions_wait (reason : WaitReason) (events : List (Event ε)) :
    suspensions (.wait reason :: events) =
      if reason.outcome?.isNone then suspensions events + 1 else 0 := by
  rw [suspensions, reached_wait]
  split
  · exact List.countP_cons_of_pos rfl
  · rfl

theorem effects_wait (reason : WaitReason) (events : List (Event ε)) :
    effects (.wait reason :: events) = if reason.outcome?.isNone then effects events else [] := by
  rw [effects, reached_wait]
  split
  · exact List.filterMap_cons_none rfl
  · rfl

theorem outcome_wait (reason : WaitReason) (events : List (Event ε)) :
    outcome (.wait reason :: events) = reason.outcome?.getD (outcome events) := by
  cases reason <;> rfl

theorem effects_only (entries : List ε) :
    suspensions (entries.map Event.effect) = 0 ∧ effects (entries.map .effect) = entries ∧
      outcome (entries.map (Event.effect (ε := ε))) = .ok .ok := by
  have whole : entries.map (Event.effect (ε := ε)) = entries.map .effect ++ [] :=
    (List.append_nil _).symm
  rw [whole]
  refine ⟨suspensions_effects entries [], ?_, outcome_effects entries []⟩
  rw [effects_effects]
  exact List.append_nil entries

theorem effects_to_end {reason : WaitReason} {last : TaskOutcome}
    (ends : reason.outcome? = some last) (entries : List ε) (events : List (Event ε)) :
    let all := entries.map .effect ++ .wait reason :: events
    suspensions all = 0 ∧ effects all = entries ∧ outcome all = last := by
  refine ⟨?_, ?_, ?_⟩
  · simp [suspensions_effects, suspensions_wait, ends]
  · simp [effects_effects, effects_wait, ends]
  · simp [outcome_effects, outcome_wait, ends]

theorem effects_to_wait {reason : WaitReason} (goes_on : reason.outcome? = none)
    (entries : List ε) (events : List (Event ε)) :
    let all := entries.map .effect ++ .wait reason :: events
    suspensions all = suspensions events + 1 ∧ effects all = entries ++ effects events ∧
      outcome all = outcome events := by
  refine ⟨?_, ?_, ?_⟩
  · simp [suspensions_effects, suspensions_wait, goes_on]
  · simp [effects_effects, effects_wait, goes_on]
  · simp [outcome_effects, outcome_wait, goes_on]

theorem reached_of_open {events : List (Event ε)}
    (unended : ∀ reason, .wait reason ∈ events → reason.isTerminal = false) :
    reached events = events ∧ outcome events = .ok .ok := by
  have silent : ∀ event ∈ events, event.ending? = none := by
    intro event member
    cases event with
    | effect entry => rfl
    | wait reason =>
      have open_ended := unended reason member
      cases reason with
      | done outcome => simp [WaitReason.isTerminal, WaitReason.kind] at open_ended
      | yield | on => rfl
  constructor
  · exact List.takeWhile_eq_self_iff.mpr fun event member => by simp [silent event member]
  · rw [outcome, List.findSome?_eq_none_iff.mpr silent, Option.getD_none]

end Event

/-- A task over a woven routine between two runs, with the events still to come. -/
inductive Awaits (r : Routine ε τ) (args : Locals τ) (t : Task ρ) : List (Event ε) → Prop where
  | fresh (new : t.state = .new) (unset : t.reason = none) (empty : t.frames = {}) :
      Awaits r args t (r.direct args).1
  | stopped (suspended : t.state = .suspended) (waits : ended t.reason = none)
      (saved : SavedFrame) (frames : List SavedFrame) (events : List (Event ε)) (value : Value)
      (parked : t.frames.Parked (saved :: frames))
      (rest : Routine.Stopped r saved frames events value) :
      Awaits r args t events

structure Task.Concluded (t : Task ρ) (outcome : TaskOutcome) : Prop where
  done : t.state = .done
  exit : t.exit = some outcome
  empty : t.frames = {}

theorem Task.conclude_concluded (t : Task ρ) (outcome : TaskOutcome) :
    (t.conclude outcome).Concluded outcome := ⟨rfl, rfl, rfl⟩

section

variable {r : Routine ε τ} {args : Locals τ} {t : Task ρ} {events : List (Event ε)}

theorem Awaits.proceeds (marked : r.WellMarked) (awaits : Awaits r args t events)
    (uncancelled : t.cancel = none) :
    ∃ frames, t.admission = .entered frames ∧ ended t.reason = none ∧
      ∀ (execute : Context ρ ε → Ending Unit × Context ρ ε) (cx : Context ρ ε),
        cx.frames = frames → cx.cancelRequest = none →
        ∃ value, Proceeds r [] cx events value ((r.woven args).exec execute cx) := by
  cases awaits with
  | fresh new unset empty =>
    refine ⟨_, t.admission_of_unwound (by rw [empty]) (.inr ⟨new, uncancelled⟩),
      by rw [unset]; rfl, ?_⟩
    intro execute cx frames _
    rw [empty] at frames
    refine ⟨(r.direct args).2, ?_⟩
    rw [Routine.woven, Script.exec_enterMarked_fresh (by rw [frames]; rfl)]
    exact code_proceeds execute marked args frames (by simp [Blank])
  | stopped suspended waits saved inner events value parked rest =>
    obtain ⟨unwound, spare, blank, slots⟩ := parked
    refine ⟨_, t.admission_of_unwound unwound (.inl suspended), waits, ?_⟩
    intro execute cx frames open_ended
    obtain ⟨again, locals, resumes, held, plays⟩ := resume_proceeds execute rest marked
    have wound : cx.frames = wound [] saved.slot
        (inner.map SavedFrame.slot ++ some Slot.pause :: spare) saved.marker false := by
      rw [frames, slots]
      rfl
    refine ⟨value, ?_⟩
    have legal := marked.legal rest.inside
    rw [Routine.woven, Script.exec_enterMarked_rewound execute legal held wound _ resumes]
    exact plays wound blank open_ended

end

namespace World

/-- One run of a task that awaits some events. Either nothing stops it and it is done, or it plays
the effects before the next suspension, which ends the task or leaves it awaiting what comes
after. -/
theorem runTask_awaits {w : World ρ ε} {task : Nat} {t : Task ρ}
    (found : w.tasks[task]? = some t) {r : Routine ε τ} (marked : r.WellMarked) {args : Locals τ}
    {events : List (Event ε)} (awaits : Awaits r args t events) (uncancelled : t.cancel = none)
    (depth : Nat) :
    let ran := w.runTask (Script.execute (fun _ => r.woven args) (depth + 1)) task
    ∃ (effects : List ε) (t' : Task ρ), ran.2.tasks[task]? = some t' ∧ t'.cancel = none ∧
      ran.2.log = w.log ++ effects.map (Prod.mk task) ∧
      ((events = effects.map .effect ∧ ran.1 = .done ∧ t'.Concluded (.ok .ok)) ∨
        ∃ reason later, events = effects.map .effect ++ .wait reason :: later ∧
          match reason.outcome? with
          | some outcome => ran.1 = .done ∧ t'.Concluded outcome
          | none => ran.1 = .suspended ∧ Awaits r args t' later) := by
  obtain ⟨frames, admitted, waits, plays⟩ := awaits.proceeds marked uncancelled
  let cx : Context ρ ε :=
    { task, id := t.id, classifier := t.classifier, frames, reason := t.reason, object := t.entry
      world := w.updateTask task ({ · with state := .running }) }
  have running : cx.world.tasks[task]? = some { t with state := .running } := by
    simp [cx, updateTask, found]
  have entered : w.entry task = some cx := by simp [entry, found, admitted, cx]
  obtain ⟨value, played⟩ := plays (Script.execute (fun _ => r.woven args) depth) cx rfl
    (by simp [Context.cancelRequest, cancelOf, running, uncancelled, cx])
  rw [runTask_entered entered, Script.execute]
  generalize ((fun _ => r.woven args) cx.object : Script ρ ε).exec _ cx = ran at played ⊢
  -- A frame that proceeds changes nothing in the world but the log.
  have kept : ∀ (frames : FrameStack ρ) (reason : Option WaitReason) (effects : List ε)
      (change : Task ρ → Task ρ),
      ((cx.reached frames reason effects).world.updateTask task change).tasks[task]? =
        some (change { t with state := .running }) := by
    intro frames reason effects change
    simp only [updateTask, Context.reached, List.getElem?_modify, ↓reduceIte]
    rw [running]
    rfl
  cases played with
  | returns effects value above marker reason blank unset =>
    have open_ended : ended reason = none := by
      rcases unset with rfl | rfl
      · exact waits
      · rfl
    refine ⟨effects, _, kept _ _ _ _, ?_⟩
    simp only [Ending.map, Context.reached, Settlement.ofEnding_returned blank _ open_ended]
    exact ⟨uncancelled, rfl, .inl ⟨trivial, rfl, Task.conclude_concluded _ _⟩⟩
  | suspends effects reason later value saved inner spare marker blank stopped =>
    refine ⟨effects, _, kept _ _ _ _, ?_⟩
    simp only [Ending.map, Context.reached, Settlement.ofEnding_paused]
    cases ends : reason.outcome? with
    | some outcome =>
      refine ⟨uncancelled, rfl, .inr ⟨reason, later, rfl, ?_⟩⟩
      simp only [ends]
      exact ⟨rfl, Task.conclude_concluded _ _⟩
    | none =>
      refine ⟨uncancelled, rfl, .inr ⟨reason, later, rfl, ?_⟩⟩
      simp only [ends]
      refine ⟨rfl, .stopped rfl ?_ saved inner later value ?_ stopped⟩
      · exact ends
      · exact ⟨rfl, spare, blank, rfl⟩

/-- One call more than these events have suspensions, all of them `run`, play the events and end
the task with their outcome. -/
def RunsOut (w : World ρ ε) (task : Nat) (run : TaskCall ρ ε) (events : List (Event ε)) : Prop :=
  let past := w.answerAll (List.replicate (Event.suspensions events + 1) run)
  past.1 = List.replicate (Event.suspensions events) (.ran .suspended) ++ [.ran .done] ∧
    past.2.log = w.log ++ (Event.effects events).map (Prod.mk task) ∧
    ∃ t, past.2.tasks[task]? = some t ∧ t.Concluded (Event.outcome events)

section

variable {w : World ρ ε} {task : Nat} {run : TaskCall ρ ε} {effects : List ε}
  {events later : List (Event ε)}

theorem runsOut_of_done (done : (w.answer run).1 = .ran .done)
    (log : (w.answer run).2.log = w.log ++ effects.map (Prod.mk task)) {t : Task ρ}
    (found : (w.answer run).2.tasks[task]? = some t) {outcome : TaskOutcome}
    (concluded : t.Concluded outcome)
    (last : Event.suspensions events = 0 ∧ Event.effects events = effects ∧
      Event.outcome events = outcome) : w.RunsOut task run events := by
  obtain ⟨none_left, all, same⟩ := last
  unfold RunsOut
  rw [none_left, all, same]
  exact ⟨congrArg (fun answer => [answer]) done, log, t, found, concluded⟩

theorem runsOut_of_suspended (suspended : (w.answer run).1 = .ran .suspended)
    (log : (w.answer run).2.log = w.log ++ effects.map (Prod.mk task))
    (runs_out : (w.answer run).2.RunsOut task run later)
    (first : Event.suspensions events = Event.suspensions later + 1 ∧
      Event.effects events = effects ++ Event.effects later ∧
      Event.outcome events = Event.outcome later) : w.RunsOut task run events := by
  obtain ⟨count, all, same⟩ := first
  obtain ⟨answers, log', concluded⟩ := runs_out
  unfold RunsOut
  rw [count, all, same]
  refine ⟨?_, ?_, concluded⟩
  · exact congr (congrArg _ suspended) answers
  · rw [List.map_append, ← List.append_assoc, ← log]
    exact log'

end

theorem awaits_runsOut {w : World ρ ε} {task : Nat} {t : Task ρ}
    (found : w.tasks[task]? = some t) {r : Routine ε τ} (marked : r.WellMarked) {args : Locals τ}
    {events : List (Event ε)} (awaits : Awaits r args t events) (uncancelled : t.cancel = none)
    (depth : Nat) : w.RunsOut task (.run task (fun _ => r.woven args) (depth + 1)) events := by
  -- Each run but the last one leaves fewer events, for it passes one suspension at least.
  induction length : events.length using Nat.strongRecOn generalizing w t events with
  | ind size ih =>
    obtain ⟨effects, t', found', uncancelled', log, ending⟩ :=
      runTask_awaits found marked awaits uncancelled depth
    rcases ending with ⟨rfl, done, concluded⟩ | ⟨reason, later, rfl, next⟩
    · exact runsOut_of_done (congrArg _ done) log found' concluded (Event.effects_only effects)
    · cases ends : reason.outcome? with
      | some outcome =>
        simp only [ends] at next
        exact runsOut_of_done (congrArg _ next.1) log found' next.2
          (Event.effects_to_end ends effects later)
      | none =>
        simp only [ends] at next
        have shorter : later.length < size := by
          rw [← length, List.length_append, List.length_cons]
          omega
        have rest := ih _ shorter found' next.2 uncancelled' rfl
        exact runsOut_of_suspended (congrArg _ next.1) log rest
          (Event.effects_to_wait ends effects later)

/-- A woven routine tree that a task runs cannot tell its suspensions from steps that do nothing.
The task is answered as suspended once for each suspension of the direct execution and then as done;
the effects of all runs together are those of the direct execution, and its outcome is the default
one. The first suspension on the terminal condition, if there is one, ends the task instead: the run
that reaches it is the last, and the outcome is the one that the condition carries. -/
theorem suspension_is_transparent (w : World ρ ε) (entry : ρ) (classifier depth : Nat)
    {r : Routine ε τ} (marked : r.WellMarked) (locals : Locals τ) :
    let task := w.tasks.length
    let events := (r.direct locals).1
    let run : TaskCall ρ ε := .run task (fun _ => r.woven locals) (depth + 1)
    let past := (w.addTask entry classifier).answerAll
      (List.replicate (Event.suspensions events + 1) run)
    past.1 = List.replicate (Event.suspensions events) (.ran .suspended) ++ [.ran .done] ∧
      past.2.log = w.log ++ (Event.effects events).map (Prod.mk task) ∧
      (∃ t, past.2.tasks[task]? = some t ∧ t.Concluded (Event.outcome events)) ∧
      ((∀ reason, .wait reason ∈ events → reason.isTerminal = false) →
        Event.reached events = events ∧ Event.outcome events = .ok .ok) := by
  intro task events run past
  have created : (w.addTask entry classifier).tasks[task]? = some
      { id := .ofIndex w.tasks.length, entry, classifier } := by
    simp [addTask, task]
  obtain ⟨answers, log, concluded⟩ :=
    awaits_runsOut created marked (.fresh rfl rfl rfl : Awaits r locals _ events) rfl depth
  exact ⟨answers, log, concluded, Event.reached_of_open⟩

end World

namespace Routine

def counts : Routine (List Int64) .vector :=
  .suspend 1 (fun _ => .yield) <|
  .effect Locals.numbers (fun locals => ⟨.vector (locals.numbers.map (· + 1)), rfl⟩) <|
  .suspend 2 (fun _ => .yield) <|
  .effect Locals.numbers id <|
  .finish Subtype.val

def countsTwice : Routine (List Int64) .vector :=
  .call 1 counts id (fun _ result => if fits : result.type = .vector then ⟨result, fits⟩ else
    ⟨.vector [], rfl⟩) <|
  .suspend 2 (fun _ => .on (.deadline 0)) <|
  .call 3 counts id (fun locals _ => locals) <|
  .effect Locals.numbers id <|
  .finish Subtype.val

end Routine

theorem nested_counts_are_transparent :
    let w : World Unit (List Int64) := { scheduler := default }
    let run : TaskCall Unit (List Int64) :=
      .run 0 (fun _ => Routine.countsTwice.woven ⟨.vector [1], rfl⟩) 1
    let past := (w.addTask () 0).answerAll (List.replicate 6 run)
    Routine.countsTwice.WellMarked ∧
      past.1 = List.replicate 5 (.ran .suspended) ++ [.ran .done] ∧
      past.2.log = [[1], [2], [2], [3], [2]].map (Prod.mk 0) := by
  have marked : Routine.countsTwice.WellMarked := by decide
  obtain ⟨answers, log, -⟩ :=
    World.suspension_is_transparent ({ scheduler := default } : World Unit (List Int64)) () 0 0
      marked ⟨.vector [1], rfl⟩
  exact ⟨marked, answers, log⟩

namespace Routine

def endsItself : Routine String .unit :=
  .effect (fun _ => "before") id <|
  .suspend 1 (fun _ => .done (.ok .ok)) <|
  .effect (fun _ => "after") id <|
  .finish Subtype.val

end Routine

/-- The direct execution has one suspension and two effects. The task is done at once instead of
suspended, and running it again does not bring the second effect. -/
theorem terminal_suspension_ends_the_task :
    let w : World Unit String := { scheduler := default }
    let events := (Routine.endsItself.direct ⟨.unit, rfl⟩).1
    let run : TaskCall Unit String :=
      .run 0 (fun _ => Routine.endsItself.woven ⟨.unit, rfl⟩) 1
    let past := (w.addTask () 0).answerAll [run, run]
    Routine.endsItself.WellMarked ∧ events.countP Event.isWait = 1 ∧
      events.filterMap Event.effect? = ["before", "after"] ∧
      past.1 ≠ [.ran .suspended, .ran .done] ∧ past.2.log = [(0, "before")] := by
  refine ⟨by decide, rfl, rfl, ?_, rfl⟩
  intro same
  cases same

end ResumableTasks
