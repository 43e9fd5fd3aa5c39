import ResumableTasks.Calls
import ResumableTasks.Proofs.StatefulRun
import ResumableTasks.Proofs.Transparency
/-!
A task over an object with state, turn after turn. Each turn plays the direct execution on from
where it was left: up to the next suspension, after which the task holds what the direct execution
says about it, or up to the end, with which the task is done. A request to stop is the end of it
where the task was left.
-/
namespace ResumableTasks

open FrameStack Slot Occurrence

variable {σ ω ε ρ α : Type}

namespace Leaving

def answer (id : TaskId) : Leaving → RunAnswer
  | .fail error => if error.isFatal then .failed (error.inTask id) else .done
  | _ => .done

def outcome (id : TaskId) : Leaving → TaskOutcome
  | .exit result => .ofResult (result.map ExitValue.mk)
  | .cancel request => .cancelled request
  | .fail error => .err (if error.isFatal then error.inTask id else error)
  | .panic payload => .panicked (.ofPayload payload)

end Leaving

namespace Close

def answer (id : TaskId) : Close → RunAnswer
  | .returned _ => .done
  | .left way => way.answer id

def outcome (id : TaskId) : Close → TaskOutcome
  | .returned _ => .ok .ok
  | .left way => way.outcome id

end Close

namespace Occurrence

def waits (occurrences : List (Occurrence ρ σ ε)) : Nat := occurrences.countP isWait

def effects (occurrences : List (Occurrence ρ σ ε)) : List ε := occurrences.filterMap effect?

def ending? : Occurrence ρ σ ε → Option TaskOutcome
  | .wait reason _ _ => reason.outcome?
  | _ => none

def reached (occurrences : List (Occurrence ρ σ ε)) : List (Occurrence ρ σ ε) :=
  occurrences.takeWhile (·.ending?.isNone)

def newcomers : List (Occurrence ρ σ ε) → List ρ
  | [] => []
  | .effect _ :: rest => newcomers rest
  | .invoked object :: rest => object :: newcomers rest
  | .wait .. :: _ => []

section

variable {quiet : List (Occurrence ρ σ ε)} (silent : Quiet quiet)
include silent

theorem Quiet.waits_eq : waits quiet = 0 :=
  List.countP_eq_zero.mpr fun o member => by simp [silent o member]

theorem Quiet.waits_append (later : List (Occurrence ρ σ ε)) :
    waits (quiet ++ later) = waits later := by
  rw [waits, List.countP_append, ← waits, silent.waits_eq, Nat.zero_add, ← waits]

theorem Quiet.ending_none (o : Occurrence ρ σ ε) (member : o ∈ quiet) : o.ending? = none := by
  cases o with
  | effect | invoked => rfl
  | wait => cases silent _ member

theorem Quiet.reached_eq : reached quiet = quiet :=
  List.takeWhile_eq_self_iff.mpr fun o member => by simp [silent.ending_none o member]

theorem Quiet.reached_append (later : List (Occurrence ρ σ ε)) :
    reached (quiet ++ later) = quiet ++ reached later :=
  List.takeWhile_append_of_pos fun o member => by simp [silent.ending_none o member]

theorem Quiet.findSome?_eq : quiet.findSome? ending? = none :=
  List.findSome?_eq_none_iff.mpr silent.ending_none

theorem Quiet.findSome?_append (later : List (Occurrence ρ σ ε)) :
    (quiet ++ later).findSome? ending? = later.findSome? ending? := by
  rw [List.findSome?_append, silent.findSome?_eq, Option.none_or]

section

variable {reason : WaitReason} (state : σ) (held : List (Slot ρ)) (later : List (Occurrence ρ σ ε))

theorem Quiet.to_end {outcome : TaskOutcome} (terminal : reason.outcome? = some outcome) :
    let all := quiet ++ [.wait reason state held] ++ later
    reached all = quiet ∧ all.findSome? ending? = some outcome := by
  simp only [List.append_assoc, silent.reached_append, silent.findSome?_append]
  simp [reached, ending?, terminal]

theorem Quiet.to_wait (open_ended : reason.outcome? = none) :
    let all := quiet ++ [.wait reason state held] ++ later
    reached all = quiet ++ [.wait reason state held] ++ reached later ∧
      all.findSome? ending? = later.findSome? ending? ∧
      waits (reached all) = waits (reached later) + 1 ∧
      effects (reached all) = effects quiet ++ effects (reached later) := by
  have passed : reached (quiet ++ [.wait reason state held] ++ later) =
      quiet ++ [.wait reason state held] ++ reached later := by
    rw [List.append_assoc, silent.reached_append, List.append_assoc]
    simp [reached, ending?, open_ended]
  have went : (quiet ++ [Occurrence.wait reason state held] ++ later).findSome? ending? =
      later.findSome? ending? := by
    rw [List.append_assoc, silent.findSome?_append]
    simp [ending?, open_ended]
  refine ⟨passed, went, ?_, ?_⟩
  · rw [passed, List.append_assoc, silent.waits_append]
    exact List.countP_cons_of_pos rfl
  · rw [passed, effects, List.filterMap_append, List.filterMap_append]
    exact congrArg (· ++ _) (List.append_nil _)

end

theorem Quiet.newcomers_append (later : List (Occurrence ρ σ ε)) :
    newcomers (quiet ++ later) = quiet.filterMap invoked? ++ newcomers later := by
  induction quiet with
  | nil => rfl
  | cons o rest ih =>
    have still : Quiet rest := fun o member => silent o (List.mem_cons_of_mem _ member)
    cases o with
    | effect => exact ih still
    | invoked object => exact congrArg (object :: ·) (ih still)
    | wait => cases silent _ List.mem_cons_self

end

end Occurrence

namespace Play

def answer (id : TaskId) (play : Play ρ σ ε) : RunAnswer :=
  match play.occurrences.findSome? ending? with
  | some _ => .done
  | none => play.close.answer id

def outcome (id : TaskId) (play : Play ρ σ ε) : TaskOutcome :=
  (play.occurrences.findSome? ending?).getD (play.close.outcome id)

theorem first_wait {quiet before : List (Occurrence ρ σ ε)} {wait first : Occurrence ρ σ ε}
    {later rest : Play ρ σ ε} (silent : Quiet quiet) (waits : wait.isWait = true)
    (split : later.before (before ++ [wait]) = rest.before (quiet ++ [first])) :
    (before = quiet ∧ wait = first ∧ later = rest) ∨
      ∃ between, before = quiet ++ first :: between ∧ rest = later.before (between ++ [wait]) := by
  obtain ⟨occurrences, close, state⟩ := later
  obtain ⟨occurrences', close', state'⟩ := rest
  simp only [Play.before, List.append_assoc, List.cons_append, List.nil_append, mk.injEq] at split
  obtain ⟨same, rfl, rfl⟩ := split
  rcases List.append_eq_append_iff.mp same with ⟨more, rfl, tail⟩ | ⟨more, rfl, tail⟩
  · cases more with
    | nil =>
      obtain ⟨rfl, rfl⟩ := List.cons.inj tail
      exact .inl ⟨(List.append_nil before).symm, rfl, rfl⟩
    | cons o more =>
      obtain ⟨rfl, -⟩ := List.cons.inj tail
      simp [silent wait (by simp)] at waits
  · cases more with
    | nil =>
      obtain ⟨rfl, rfl⟩ := List.cons.inj tail
      exact .inl ⟨List.append_nil quiet, rfl, rfl⟩
    | cons o more =>
      obtain ⟨rfl, rfl⟩ := List.cons.inj tail
      exact .inr ⟨more, rfl, by simp [before]⟩

end Play

/-- The frames of a suspended task: those of these slots, and the sentinel of the suspension. -/
def FrameStack.Holds (s : FrameStack ρ) (held : List (Slot ρ)) : Prop :=
  ∃ spare, Blank spare ∧ s = { slots := held.map some ++ some .pause :: spare }

theorem FrameStack.Holds.retained {s : FrameStack ρ} {held : List (Slot ρ)} (holds : s.Holds held) :
    s.retained = held.length + 1 := by
  obtain ⟨spare, blank, rfl⟩ := holds
  have nothing := blank_iff_countP_zero.mpr blank
  simp [FrameStack.retained, List.countP_append, List.countP_map, nothing, Function.comp_def]

/-- A task over an object with state between two turns: the slots that it holds, the state of its
object and the play that is still to come. -/
inductive Rests (code : FrameCode σ ω ε) (depth : Nat) (t : Task (RoutineObject σ ω ε)) :
    List (Slot (RoutineObject σ ω ε)) → σ → Play (RoutineObject σ ω ε) σ ε → Prop where
  | fresh (new : t.state = .new) (unset : t.reason = none) (empty : t.frames = {}) {state : σ}
      (owns : t.entry = .stateful code state) (woven : (code.start state).Woven code depth state) :
      Rests code depth t [] state ((code.start state).direct state)
  | stopped (suspended : t.state = .suspended) (open_ended : ended t.reason = none) {state : σ}
      (owns : t.entry = .stateful code state) {held : List (Slot (RoutineObject σ ω ε))}
      (holds : t.frames.Holds held) {play : Play (RoutineObject σ ω ε) σ ε}
      (stopped : Method.Stopped code depth held state play) :
      Rests code depth t held state play

section

variable {code : FrameCode σ ω ε} {depth : Nat} {t : Task (RoutineObject σ ω ε)}
  {held : List (Slot (RoutineObject σ ω ε))} {state : σ}
  {play : Play (RoutineObject σ ω ε) σ ε}

theorem Rests.owns (rests : Rests code depth t held state play) :
    t.entry = .stateful code state := by
  cases rests with
  | fresh _ _ _ owns => exact owns
  | stopped _ _ owns => exact owns

theorem Rests.requested (rests : Rests code depth t held state play) (request : CancelReason) :
    Rests code depth { t with cancel := some request } held state play := by
  let asked := { t with cancel := some request }
  cases rests with
  | fresh new unset empty owns woven => exact .fresh (t := asked) new unset empty owns woven
  | stopped suspended open_ended owns holds stopped =>
    exact .stopped (t := asked) suspended open_ended owns holds stopped

theorem Rests.polled (rests : Rests code depth t held state play) {reason : WaitReason}
    (waits : t.reason = some reason) (latches : List Bool) (now : Nat) :
    let asked := { t with reason := some (reason.poll latches now t.id).2 }
    Rests code depth asked held state play := by
  intro asked
  cases rests with
  | fresh _ unset => cases waits.symm.trans unset
  | stopped suspended open_ended owns holds stopped =>
    have still := ended_poll (waits ▸ open_ended) latches now t.id
    exact .stopped (t := asked) suspended still owns holds stopped

theorem Rests.holds (rests : Rests code depth t held state play) {reason : WaitReason}
    (waits : t.reason = some reason) : t.state = .suspended ∧ t.frames.Holds held := by
  cases rests with
  | fresh _ unset => cases waits.symm.trans unset
  | stopped suspended _ _ holds => exact ⟨suspended, holds⟩

/-- How a turn that plays these occurrences without a wait ends: with the play, at a wait that ends
the task, or at one after which the task rests again. -/
inductive TurnEnds (code : FrameCode σ ω ε) (depth : Nat) (id : TaskId)
    (play : Play (RoutineObject σ ω ε) σ ε)
    (quiet : List (Occurrence (RoutineObject σ ω ε) σ ε))
    (acts : List (Act (RoutineObject σ ω ε) ε)) (answer : RunAnswer)
    (t' : Task (RoutineObject σ ω ε)) : Prop where
  | completed (whole : play.occurrences = quiet) (answered : answer = play.close.answer id)
      (concluded : t'.Concluded (play.close.outcome id))
      (exits : ∀ result, play.close = .left (.exit result) →
        acts.getLast? = some (.op (Leaving.exitOp result)))
  | ended {reason : WaitReason} {kept : σ} {inner : List (Slot (RoutineObject σ ω ε))}
      {later : Play (RoutineObject σ ω ε) σ ε} {outcome : TaskOutcome}
      (split : play = later.before (quiet ++ [.wait reason kept inner]))
      (terminal : reason.outcome? = some outcome) (answered : answer = .done)
      (concluded : t'.Concluded outcome)
  | suspended {reason : WaitReason} {kept : σ} {inner : List (Slot (RoutineObject σ ω ε))}
      {later : Play (RoutineObject σ ω ε) σ ε}
      (split : play = later.before (quiet ++ [.wait reason kept inner]))
      (open_ended : reason.outcome? = none) (answered : answer = .suspended)
      (waits : t'.reason = some reason) (rests : Rests code depth t' inner kept later)

theorem Rests.plays (rests : Rests code depth t held state play)
    (startable : t.state = .new → t.cancel = none)
    (others : ω → Script (RoutineObject σ ω ε) ε) (turn : Nat) :
    ∃ frames, t.admission = .entered frames ∧ ended t.reason = none ∧
      ∀ cx : Context (RoutineObject σ ω ε) ε, cx.frames = frames → cx.cancelRequest = t.cancel →
        cx.object = .stateful code state →
        Plays id (Method.Stopped code depth) (.stateful code) [] cx (held.filterMap Slot.routine?)
          (play.under t.cancel state)
          ((code.script turn).actsBy (Script.execute (RoutineObject.enter others turn) depth)
            (Script.acts (RoutineObject.enter others turn) depth) cx)
          ((code.script turn).exec (Script.execute (RoutineObject.enter others turn) depth)
            cx) := by
  cases rests with
  | fresh new unset empty owns woven =>
    have uncancelled := startable new
    refine ⟨_, t.admission_of_unwound (by rw [empty]) (.inr ⟨new, uncancelled⟩),
      by rw [unset]; rfl, ?_⟩
    intro cx frames _ holds
    rw [empty] at frames
    rw [uncancelled]
    have started := code_plays others turn woven frames (by simp [Blank]) holds
    exact fresh_plays code (by rw [frames]; rfl) holds started
  | stopped suspended open_ended owns holds stopped =>
    obtain ⟨spare, blank, slots⟩ := holds
    refine ⟨_, t.admission_of_unwound (by rw [slots]) (.inl suspended), open_ended, ?_⟩
    intro cx frames requested holds
    rw [slots] at frames
    rw [← requested]
    exact resume_plays others turn stopped frames blank holds

end

namespace Settlement

theorem ofEnding_leaving (id : TaskId) {way : Leaving} {below : List (Option (Slot ρ))}
    {frames : FrameStack ρ} {reason : Option WaitReason} {acts : List (Act ρ ε)}
    (left : way.Leaves below frames reason acts) :
    let settlement := ofEnding (α := α) id way.ending frames reason
    settlement.answer = way.answer id ∧
      ∀ t : Task ρ, (t.settle settlement).2 = t.conclude (way.outcome id) := by
  cases way with
  | exit result =>
    obtain ⟨rfl, -⟩ := left.exits result rfl
    exact ⟨rfl, fun _ => rfl⟩
  | fail error =>
    cases fatal : error.isFatal <;>
      simp [Leaving.ending, ofEnding, Leaving.answer, Leaving.outcome, fatal, answer, Task.settle]
  | cancel | panic => exact ⟨rfl, fun _ => rfl⟩

end Settlement

namespace World

variable {w : World (RoutineObject σ ω ε) ε} {task : Nat} {t : Task (RoutineObject σ ω ε)}
  {code : FrameCode σ ω ε} {depth : Nat} {held : List (Slot (RoutineObject σ ω ε))} {state : σ}
  {play : Play (RoutineObject σ ω ε) σ ε}

/-- One turn of a task at rest. It executes the object of the task and those kept further in, in the
states in which they were left, and then those that are invoked. -/
theorem runTask_rests (found : w.tasks[task]? = some t)
    (rests : Rests code depth t held state play) (startable : t.state = .new → t.cancel = none)
    (others : ω → Script (RoutineObject σ ω ε) ε) (turn : Nat) :
    let ran := w.runTask (Script.execute (RoutineObject.enter others turn) (depth + 1)) task
    let acts := w.acts (RoutineObject.enter others turn) (depth + 1) task
    ∃ quiet t', Opening (.stateful code state :: held.filterMap Slot.routine?) quiet acts ∧
      ran.2.tasks[task]? = some t' ∧ t'.cancel = t.cancel ∧ t'.id = t.id ∧
      ran.2.log = w.log ++ (effects quiet).map (Prod.mk task) ∧
      TurnEnds code depth t.id (play.under t.cancel state) quiet acts ran.1 t' := by
  obtain ⟨frames, admitted, open_ended, plays⟩ := rests.plays startable others turn
  let cx : Context (RoutineObject σ ω ε) ε :=
    { task, id := t.id, classifier := t.classifier, frames, reason := t.reason, object := t.entry
      world := w.updateTask task ({ · with state := .running }) }
  have running : cx.world.tasks[task]? = some { t with state := .running } := by
    simp [cx, updateTask, found]
  have entered : w.entry task = some cx := by simp [entry, found, admitted, cx]
  have played := plays cx rfl
    (by simp [Context.cancelRequest, cancelOf, running, cx]) rests.owns
  have enters : RoutineObject.enter others turn cx.object = code.script turn := by
    rw [show cx.object = _ from rests.owns]
    rfl
  rw [← enters] at played
  have executed := execute_plays (RoutineObject.enter others turn) played
  have acted : w.acts (RoutineObject.enter others turn) (depth + 1) task =
      Script.acts (RoutineObject.enter others turn) (depth + 1) cx := by
    simp only [World.acts, entered]
  rw [acted, runTask_entered entered]
  generalize Script.acts (RoutineObject.enter others turn) (depth + 1) cx = acts at executed ⊢
  generalize Script.execute (RoutineObject.enter others turn) (depth + 1) cx = ran at executed ⊢
  -- A frame that plays changes nothing in the world but the log.
  have kept (object : RoutineObject σ ω ε) (frames : FrameStack (RoutineObject σ ω ε))
      (reason : Option WaitReason) (effects : List ε)
      (change : Task (RoutineObject σ ω ε) → Task (RoutineObject σ ω ε)) :
      ((cx.played object frames reason effects).world.updateTask task change).tasks[task]? =
        some (change { t with state := .running }) := by
    simp only [updateTask, Context.played, Context.reached, List.getElem?_modify, ↓reduceIte]
    rw [running]
    rfl
  rw [show cx.object = _ from rests.owns] at executed
  generalize play.under t.cancel state = turned at executed ⊢
  cases executed with
  | @returns quiet _ opening value state above marker reason blank unset =>
    have unended : ended reason = none := by
      rcases unset with rfl | rfl
      · exact open_ended
      · rfl
    refine ⟨quiet, _, opening, kept _ _ _ _ _, ?_⟩
    simp only [Context.played, Context.reached, Settlement.ofEnding_returned blank _ unended]
    exact ⟨rfl, rfl, rfl, .completed rfl rfl (Task.conclude_concluded _ _) (by simp)⟩
  | @leaves quiet _ opening way state frames reason left =>
    obtain ⟨answered, settled⟩ := Settlement.ofEnding_leaving (α := Unit) t.id left
    refine ⟨quiet, _, opening, kept _ _ _ _ _, ?_⟩
    simp only [Context.played, Context.reached]
    rw [settled]
    refine ⟨rfl, rfl, rfl, .completed rfl answered (Task.conclude_concluded _ _) ?_⟩
    rintro result ⟨rfl⟩
    exact (left.exits result rfl).2
  | @suspends quiet _ opening reason state own inner spare marker blank later stood =>
    refine ⟨quiet, _, opening, kept _ _ _ _ _, ?_⟩
    simp only [Context.played, Context.reached, Settlement.ofEnding_paused]
    cases ends : reason.outcome? with
    | some outcome =>
      exact ⟨rfl, rfl, rfl, .ended rfl ends rfl (Task.conclude_concluded _ _)⟩
    | none =>
      refine ⟨rfl, rfl, rfl, .suspended rfl ends rfl rfl ?_⟩
      refine .stopped rfl ?_ rfl ⟨spare, blank, rfl⟩ stood
      exact ends

theorem runTask_plays (found : w.tasks[task]? = some t)
    (rests : Rests code depth t held state play) (uncancelled : t.cancel = none)
    (others : ω → Script (RoutineObject σ ω ε) ε) (turn : Nat) :
    let ran := w.runTask (Script.execute (RoutineObject.enter others turn) (depth + 1)) task
    let acts := w.acts (RoutineObject.enter others turn) (depth + 1) task
    ∃ quiet t', Opening (.stateful code state :: held.filterMap Slot.routine?) quiet acts ∧
      ran.2.tasks[task]? = some t' ∧ t'.cancel = none ∧ t'.id = t.id ∧
      ran.2.log = w.log ++ (effects quiet).map (Prod.mk task) ∧
      TurnEnds code depth t.id play quiet acts ran.1 t' := by
  have turned := runTask_rests found rests (fun _ => uncancelled) others turn
  rw [uncancelled] at turned
  exact turned

def executed (w : World ρ ε) (enter : ρ → Script ρ ε) (depth task : Nat) : List ρ :=
  (w.acts enter depth task).filterMap Act.executed?

theorem executed_rests (found : w.tasks[task]? = some t)
    (rests : Rests code depth t held state play) (startable : t.state = .new → t.cancel = none)
    (others : ω → Script (RoutineObject σ ω ε) ε) (turn : Nat) :
    w.executed (RoutineObject.enter others turn) (depth + 1) task =
      .stateful code state :: held.filterMap Slot.routine? ++
        newcomers (play.under t.cancel state).occurrences := by
  obtain ⟨quiet, t', opening, -, -, -, -, ends⟩ :=
    runTask_rests found rests startable others turn
  generalize play.under t.cancel state = turned at ends ⊢
  have invoked : newcomers turned.occurrences = quiet.filterMap invoked? := by
    cases ends with
    | completed whole =>
      have newcomers := opening.silent.newcomers_append []
      rw [List.append_nil] at newcomers
      rw [whole, newcomers]
      exact List.append_nil _
    | ended split | suspended split =>
      rw [split, Play.before, List.append_assoc, opening.silent.newcomers_append]
      exact List.append_nil _
  rw [executed, opening.executed, invoked]

end World

def TaskCall.turns (others : ω → Script (RoutineObject σ ω ε) ε) (depth task first count : Nat) :
    List (TaskCall (RoutineObject σ ω ε) ε) :=
  (List.range' first count).map fun turn => .run task (RoutineObject.enter others turn) (depth + 1)

namespace World

variable {w : World (RoutineObject σ ω ε) ε} {task : Nat} {t : Task (RoutineObject σ ω ε)}
  {code : FrameCode σ ω ε} {depth : Nat} {held : List (Slot (RoutineObject σ ω ε))} {state : σ}
  {play : Play (RoutineObject σ ω ε) σ ε}

theorem addTask_rests (w : World (RoutineObject σ ω ε) ε) (classifier : Nat)
    (woven : (code.start state).Woven code depth state) :
    ∃ t, (w.addTask (.stateful code state) classifier).tasks[w.tasks.length]? = some t ∧
      t.cancel = none ∧ t.id = .ofIndex w.tasks.length ∧
      Rests code depth t [] state ((code.start state).direct state) := by
  let t : Task (RoutineObject σ ω ε) :=
    { id := .ofIndex w.tasks.length, entry := .stateful code state, classifier }
  have created : (w.addTask (.stateful code state) classifier).tasks[w.tasks.length]? = some t := by
    simp [addTask, t]
  exact ⟨t, created, rfl, rfl, .fresh rfl rfl rfl rfl woven⟩

/-- The calls are answered so, emit these effects for the task and leave this world. -/
def Does (w : World ρ ε) (task : Nat) (calls : List (TaskCall ρ ε)) (answers : List CallAnswer)
    (entries : List ε) (w' : World ρ ε) : Prop :=
  w.answerAll calls = (answers, w') ∧ w'.log = w.log ++ entries.map (Prod.mk task)

theorem Does.cons {w w' : World ρ ε} {task : Nat} {call : TaskCall ρ ε}
    {calls : List (TaskCall ρ ε)} {answer : CallAnswer} {answers : List CallAnswer}
    {entries later : List ε} (answered : (w.answer call).1 = answer)
    (log : (w.answer call).2.log = w.log ++ entries.map (Prod.mk task))
    (rest : (w.answer call).2.Does task calls answers later w') :
    w.Does task (call :: calls) (answer :: answers) (entries ++ later) w' := by
  obtain ⟨same, log'⟩ := rest
  constructor
  · simp only [answerAll, same, answered]
  · rw [log', log, List.map_append, List.append_assoc]

theorem Does.one {w : World ρ ε} {task : Nat} {call : TaskCall ρ ε} {answer : CallAnswer}
    {entries : List ε} (answered : (w.answer call).1 = answer)
    (log : (w.answer call).2.log = w.log ++ entries.map (Prod.mk task)) :
    w.Does task [call] [answer] entries (w.answer call).2 :=
  ⟨by simp only [answerAll, answered], log⟩

theorem rests_through (found : w.tasks[task]? = some t)
    (rests : Rests code depth t held state play) (uncancelled : t.cancel = none)
    (others : ω → Script (RoutineObject σ ω ε) ε) (first : Nat)
    {before : List (Occurrence (RoutineObject σ ω ε) σ ε)} {reason : WaitReason} {kept : σ}
    {inner : List (Slot (RoutineObject σ ω ε))} {later : Play (RoutineObject σ ω ε) σ ε}
    (split : play = later.before (before ++ [.wait reason kept inner]))
    (open_ended : ∀ o ∈ before ++ [.wait reason kept inner], o.ending? = none) :
    ∃ w' t', w.Does task (TaskCall.turns others depth task first (waits before + 1))
        (List.replicate (waits before + 1) (.ran .suspended)) (effects before) w' ∧
      w'.tasks[task]? = some t' ∧ t'.cancel = none ∧ t'.id = t.id ∧ t'.reason = some reason ∧
      Rests code depth t' inner kept later := by
  -- Each turn but the last one passes a wait, and what is before the given one gets shorter.
  induction length : before.length using Nat.strongRecOn
    generalizing w t held state play first before with
  | ind size ih =>
    obtain ⟨quiet, t', opening, found', uncancelled', same, log, ends⟩ :=
      runTask_plays found rests uncancelled others first
    have silent := opening.silent
    subst split
    cases ends with
    | completed all =>
      have still := silent (.wait reason kept inner) (by rw [← all]; simp [Play.before])
      cases still
    | @ended reason' kept' inner' _ _ split terminal =>
      rcases Play.first_wait silent rfl split with ⟨rfl, wait, -⟩ | ⟨between, rfl, -⟩
      · cases wait
        have unended := open_ended _ (List.mem_append_right _ List.mem_cons_self)
        cases unended.symm.trans terminal
      · have unended := open_ended (.wait reason' kept' inner') (by simp)
        cases unended.symm.trans terminal
    | @suspended reason' kept' inner' _ split open' answered waiting rests' =>
      rcases Play.first_wait silent rfl split with ⟨rfl, wait, rfl⟩ | ⟨between, rfl, rfl⟩
      · cases wait
        rw [silent.waits_eq]
        exact ⟨_, t', .one (congrArg CallAnswer.ran answered) log, found', uncancelled', same,
          waiting, rests'⟩
      · have counted : waits (quiet ++ .wait reason' kept' inner' :: between) =
            waits between + 1 := (silent.waits_append _).trans (List.countP_cons_of_pos rfl)
        have emitted : effects (quiet ++ .wait reason' kept' inner' :: between) =
            effects quiet ++ effects between := List.filterMap_append
        have shorter : between.length < size := by
          rw [← length, List.length_append, List.length_cons]
          omega
        obtain ⟨w', t'', does, found'', uncancelled'', same', waiting', rests''⟩ :=
          ih _ shorter found' rests' uncancelled' (first + 1) rfl
            (fun o member => open_ended o (by
              rw [List.append_assoc]
              exact List.mem_append_right quiet (List.mem_cons_of_mem _ member))) rfl
        rw [counted, emitted]
        exact ⟨w', t'', .cons (congrArg CallAnswer.ran answered) log does, found'', uncancelled'',
          same'.trans same, waiting', rests''⟩

/-- All turns of a task, up to the end of the play or the first wait that ends the task. If the play
ends with an exit, this is the last act of all. -/
theorem rests_complete (found : w.tasks[task]? = some t)
    (rests : Rests code depth t held state play) (uncancelled : t.cancel = none)
    (others : ω → Script (RoutineObject σ ω ε) ε) (first : Nat) :
    let count := waits (reached play.occurrences)
    ∃ w' t', w.Does task (TaskCall.turns others depth task first (count + 1))
        (List.replicate count (.ran .suspended) ++ [.ran (play.answer t.id)])
        (effects (reached play.occurrences)) w' ∧
      w'.tasks[task]? = some t' ∧ t'.Concluded (play.outcome t.id) ∧
      ∀ result, play.close = .left (.exit result) → reached play.occurrences = play.occurrences →
        let last := (w.answerAll (TaskCall.turns others depth task first count)).2
        (last.acts (RoutineObject.enter others (first + count)) (depth + 1) task).getLast? =
          some (.op (Leaving.exitOp result)) := by
  -- Each turn but the last one leaves less to come, for it passes one wait at least.
  induction length : play.occurrences.length using Nat.strongRecOn
    generalizing w t held state play first with
  | ind size ih =>
    obtain ⟨quiet, t', opening, found', uncancelled', same, log, ends⟩ :=
      runTask_plays found rests uncancelled others first
    have silent := opening.silent
    cases ends with
    | completed whole answered concluded exits =>
      subst whole
      simp only [Play.answer, Play.outcome, silent.reached_eq, silent.waits_eq,
        silent.findSome?_eq, Option.getD_none]
      exact ⟨_, t', .one (congrArg CallAnswer.ran answered) log, found', concluded,
        fun result exit _ => exits result exit⟩
    | @ended reason kept inner later last split terminal answered concluded =>
      subst split
      obtain ⟨reached_all, ends⟩ := silent.to_end kept inner later.occurrences terminal
      simp only [Play.answer, Play.outcome, Play.before, reached_all, ends, silent.waits_eq]
      refine ⟨_, t', .one (congrArg CallAnswer.ran answered) log, found', concluded, ?_⟩
      intro result _ complete
      have same := congrArg List.length complete
      simp at same
    | @suspended reason kept inner later split open_ended answered waiting rests' =>
      subst split
      obtain ⟨reached_all, ends, counted, emitted⟩ := silent.to_wait kept inner
        later.occurrences open_ended
      have shorter : later.occurrences.length < size := by
        simp only [Play.before, List.length_append, List.length_cons] at length
        omega
      obtain ⟨w', t'', does, found'', concluded, exits⟩ :=
        ih _ shorter found' rests' uncancelled' (first + 1) rfl
      rw [same] at does concluded
      simp only [Play.answer, Play.outcome, Play.before, counted, emitted, ends]
      refine ⟨w', t'', .cons (congrArg CallAnswer.ran answered) log does, found'', concluded, ?_⟩
      intro result exit complete
      have rest_complete : reached later.occurrences = later.occurrences := by
        rw [reached_all] at complete
        exact List.append_cancel_left complete
      have last := exits result exit rest_complete
      rw [Nat.add_right_comm, Nat.add_assoc] at last
      exact last

end World

end ResumableTasks
