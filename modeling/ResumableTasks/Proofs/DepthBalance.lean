import ResumableTasks.Proofs.ScriptTrace
/-!
Routine code keeps its frames matched. It leaves a frame as often as it enters one, whatever it
makes of the answers and unwindings that it gets, and so it comes back in the frame in which it
started; only a panic abandons frames. The closings of a run are the stacks as they are when a frame
is left.
-/
namespace ResumableTasks

variable {ρ ε α : Type}

namespace Ending

def Orderly : Ending α → Prop
  | .returned _ | .unwound _ => True
  | .panicked _ => False

end Ending

/-- All operations but those on the frame stack itself; what is captured has a marker that may be
saved. -/
def Op.Composable : Op ρ ε → Prop
  | .suspend _ marker _ => marker ≠ freshMarker ∧ marker ≠ pauseMarker
  | .frameStep _ | .recoverDepth _ => False
  | _ => True

namespace Context

def pauseClosings (cx : Context ρ ε) : List (FrameStack ρ) :=
  if cx.frames.pausing then []
  else [cx.frames.enter.togglePause.toOption.getD cx.frames.enter]

end Context

def Tracer.closings : Tracer ρ ε (FrameStack ρ) where
  op
    | cx, .pause _ => cx.pauseClosings
    | _, _ => []
  leaving last := [last.frames]

namespace Script

/-- Code made of the operations of a context. It may pass on, ignore or replace whatever it is
answered, but it does not stop a panic. -/
def Composed : Script ρ ε → Prop
  | .done _ => True
  | .act op next => op.Composable ∧ ∀ reply, (next reply).Composed
  | .call body next => (body ()).Composed ∧
      (∀ payload, next (.panicked payload) = .done (.panicked payload)) ∧
      ∀ reply, (next reply).Composed
  | .invoke _ next => (∀ payload, next (.panicked payload) = .done (.panicked payload)) ∧
      ∀ reply, (next reply).Composed

end Script

namespace FrameStack

theorem leave_nested {s : FrameStack ρ} (nested : 2 ≤ s.depth) :
    ∃ departure changed, s.leave = .ok (departure, changed) ∧ changed.depth = s.depth - 1 := by
  have deep : ¬ s.depth < 2 := by omega
  simp only [leave, deep, ↓reduceIte]
  cases s.pausing with
  | true => exact ⟨_, _, rfl, rfl⟩
  | false => exact ⟨_, _, rfl, rfl⟩

theorem togglePause_depth (s : FrameStack ρ) : (s.togglePause.toOption.getD s).depth = s.depth := by
  unfold togglePause
  split
  · rfl
  · split <;> rfl

end FrameStack

namespace Context

/-- A piece of routine code that leaves only frames which it entered, and that comes back in the
frame in which it started unless it panics. -/
def Balanced (closings : Context ρ ε → List (FrameStack ρ))
    (code : Context ρ ε → Ending α × Context ρ ε) : Prop :=
  ∀ cx : Context ρ ε, 1 ≤ cx.frames.depth → (∀ s ∈ closings cx, 2 ≤ s.depth) ∧
    ((code cx).1.Orderly → (code cx).2.frames.depth = cx.frames.depth)

theorem call_balanced {inner : Context ρ ε → List (FrameStack ρ)}
    {body : Context ρ ε → Ending α × Context ρ ε} (balanced : Balanced inner body) :
    Balanced (callTrace .closings inner body) (call body) := by
  intro cx wound
  obtain ⟨closed, same⟩ := balanced { cx with frames := cx.frames.enter } (Nat.succ_pos _)
  simp only [call, callTrace]
  generalize body { cx with frames := cx.frames.enter } = ran at same ⊢
  obtain ⟨ending, last⟩ := ran
  cases ending with
  | panicked payload =>
    rw [List.append_nil]
    exact ⟨closed, False.elim⟩
  | returned _ | unwound _ =>
    have inside : last.frames.depth = cx.frames.depth + 1 := same trivial
    have nested : 2 ≤ last.frames.depth := by omega
    obtain ⟨departure, changed, left, shallower⟩ := FrameStack.leave_nested nested
    simp only [left]
    constructor
    · intro s member
      rcases List.mem_append.mp member with before | own
      · exact closed s before
      · rw [List.mem_singleton.mp own]
        exact nested
    · intro _
      omega

theorem suspend_wound (cx : Context ρ ε) (wound : 1 ≤ cx.frames.depth) {marker : UInt32}
    (legal : marker ≠ freshMarker ∧ marker ≠ pauseMarker) (suspension : Suspension)
    (locals : Captured ρ) :
    (cx.suspend suspension marker locals).1 = .returned .pause ∧
      (cx.suspend suspension marker locals).2.frames.depth = cx.frames.depth := by
  have entered : cx.frames.depth ≠ 0 := Nat.ne_of_gt wound
  unfold suspend
  split
  · exact ⟨rfl, rfl⟩
  · simp only [FrameStack.capture, entered, legal.1, legal.2, or_self, ↓reduceIte]
    exact ⟨trivial, rfl⟩

theorem invokeFrame_balanced {inner : Context ρ ε → List (FrameStack ρ)}
    {execute : Context ρ ε → Ending Unit × Context ρ ε} (balanced : Balanced inner execute)
    (given : ρ) :
    Balanced (invokeFrameTrace .closings inner execute given) (invokeFrame execute given) := by
  intro cx wound
  simp only [invokeFrame, invokeFrameTrace]
  generalize found : (if cx.frames.rewinding = true then cx.frames.take .routine
    else .ok (given, cx.frames)) = target
  rcases target with _ | ⟨target, frames⟩
  · exact ⟨by simp, fun _ => rfl⟩
  · have taken : frames.depth = cx.frames.depth := by
      rcases target_frames found with rfl | rfl <;> rfl
    obtain ⟨closed, same⟩ := call_balanced balanced { cx with frames, object := target }
      (show 1 ≤ frames.depth by omega)
    refine ⟨closed, ?_⟩
    dsimp only
    generalize call execute { cx with frames, object := target } = called at same ⊢
    obtain ⟨ending, last⟩ := called
    rcases ending with (_ | suspension) | unwind | payload
    · exact fun _ => (same trivial).trans taken
    · intro _
      have inside : last.frames.depth = cx.frames.depth := (same trivial).trans taken
      have still : 1 ≤ last.frames.depth := by omega
      have legal : (1 : UInt32) ≠ freshMarker ∧ 1 ≠ pauseMarker := by decide
      have passed := (suspend_wound { last with object := cx.object } still legal suspension
        (.routine last.object)).2
      exact passed.trans inside
    · exact fun _ => (same trivial).trans taken
    · exact False.elim

theorem pause_balanced {cx : Context ρ ε} (wound : 1 ≤ cx.frames.depth) (reason : WaitReason) :
    (∀ s ∈ cx.pauseClosings, 2 ≤ s.depth) ∧
      (cx.pause reason).2.frames.depth = cx.frames.depth := by
  simp only [pause, pauseClosings]
  split
  · exact ⟨by simp, rfl⟩
  · have entered : (cx.frames.enter.togglePause.toOption.getD cx.frames.enter).depth =
        cx.frames.depth + 1 := cx.frames.enter.togglePause_depth
    generalize cx.frames.enter.togglePause.toOption.getD cx.frames.enter = frames at entered
    have nested : 2 ≤ frames.depth := by omega
    obtain ⟨departure, changed, left, shallower⟩ := FrameStack.leave_nested nested
    simp only [left, List.mem_singleton, forall_eq]
    refine ⟨nested, ?_⟩
    have back : changed.depth = cx.frames.depth := by omega
    split
    · exact back
    · exact back
    · split <;> exact back

end Context

theorem Op.perform_balanced (execute : Context ρ ε → Ending Unit × Context ρ ε) {op : Op ρ ε}
    (composable : op.Composable) {cx : Context ρ ε} (wound : 1 ≤ cx.frames.depth) :
    (∀ s ∈ Tracer.closings.op cx op, 2 ≤ s.depth) ∧
      (op.perform execute cx).2.frames.depth = cx.frames.depth := by
  cases op with
  | pause reason => exact Context.pause_balanced wound reason
  | suspend suspension marker locals =>
    exact ⟨by simp [Tracer.closings], (Context.suspend_wound cx wound composable suspension _).2⟩
  | frameStep | recoverDepth => exact composable.elim
  | emit | look | object | become | now | restore | exit | errorExit | checkpoint | stackDepth
  | release | cancel | isReady | inspect | run | spawn | live =>
    exact ⟨by simp [Tracer.closings], rfl⟩

namespace Script

theorem andThen_balanced {execute : Context ρ ε → Ending Unit × Context ρ ε}
    {inner closings : Context ρ ε → List (FrameStack ρ)}
    {code : Context ρ ε → Ending α × Context ρ ε} (first : Context.Balanced closings code)
    {next : Ending α → Script ρ ε}
    (passes : ∀ payload, next (.panicked payload) = .done (.panicked payload))
    (later : ∀ reply, Context.Balanced ((next reply).trace .closings execute inner)
      ((next reply).exec execute)) :
    Context.Balanced
      (fun cx => closings cx ++ (next (code cx).1).trace .closings execute inner (code cx).2)
      (fun cx => (next (code cx).1).exec execute (code cx).2) := by
  intro cx wound
  obtain ⟨closed, same⟩ := first cx wound
  dsimp only
  generalize code cx = ran at same ⊢
  obtain ⟨ending, last⟩ := ran
  cases ending with
  | panicked payload =>
    simp only [passes, Script.trace, List.append_nil]
    exact ⟨closed, False.elim⟩
  | returned _ | unwound _ =>
    have inside : last.frames.depth = cx.frames.depth := same trivial
    obtain ⟨after, back⟩ := later _ last (by omega)
    constructor
    · intro s member
      rcases List.mem_append.mp member with before | behind
      · exact closed s before
      · exact after s behind
    · intro orderly
      exact (back orderly).trans inside

theorem exec_balanced {execute : Context ρ ε → Ending Unit × Context ρ ε}
    {inner : Context ρ ε → List (FrameStack ρ)} (balanced : Context.Balanced inner execute)
    (script : Script ρ ε) (composed : script.Composed) :
    Context.Balanced (script.trace .closings execute inner) (script.exec execute) := by
  induction script with
  | done ending =>
    intro cx wound
    exact ⟨by simp [trace], fun _ => rfl⟩
  | act op next ih =>
    intro cx wound
    obtain ⟨own, later⟩ := composed
    obtain ⟨closed, same⟩ := Op.perform_balanced execute own wound
    obtain ⟨after, back⟩ := ih _ (later _) (op.perform execute cx).2 (by omega)
    constructor
    · intro s member
      rcases List.mem_append.mp member with before | behind
      · exact closed s before
      · exact after s behind
    · intro orderly
      exact (back orderly).trans same
  | call body next bodyIh ih =>
    obtain ⟨own, passes, later⟩ := composed
    have called := Context.call_balanced (bodyIh () own)
    exact andThen_balanced called passes fun reply => ih reply (later reply)
  | invoke object next ih =>
    obtain ⟨passes, later⟩ := composed
    have called := Context.call_balanced (Context.invokeFrame_balanced balanced object)
    exact andThen_balanced called passes fun reply => ih reply (later reply)

theorem execute_balanced {enter : ρ → Script ρ ε} (composed : ∀ r, (enter r).Composed)
    (depth : Nat) :
    Context.Balanced (executeTrace .closings enter depth) (execute enter depth) := by
  induction depth with
  | zero =>
    intro cx wound
    exact ⟨by simp [executeTrace], False.elim⟩
  | succ depth ih =>
    intro cx wound
    obtain ⟨closed, same⟩ := exec_balanced ih (enter cx.object) (composed cx.object) cx wound
    refine ⟨closed, fun orderly => same ?_⟩
    simp only [execute] at orderly
    generalize ((enter cx.object).exec (execute enter depth) cx).1 = ending at orderly ⊢
    cases ending with
    | panicked payload => exact orderly
    | returned _ | unwound _ => trivial

end Script

namespace Settlement

variable {id : TaskId} {frames : FrameStack ρ} {reason : Option WaitReason}

def framesLeft (id : TaskId) (count : Nat) : Error :=
  (Error.protocol ("entry routine returned with " ++ toString count ++ " frames wound")).withTask id

theorem violation_inj {detail other : String}
    (same : (violation id detail : Settlement ρ) = violation id other) : detail = other := by
  simpa [violation, Error.protocol, Error.withTask] using same

theorem ofFrames_ne_framesLeft (entry : frames.depth = 1) (unwound : Bool) (count : Nat) :
    ofFrames id unwound frames reason ≠ .failed (framesLeft id count) := by
  intro reported
  change _ = violation id _ at reported
  simp only [ofFrames, FrameStack.finish, entry, ne_eq, not_true_eq_false,
    ↓reduceIte] at reported
  split at reported
  · have letters := congrArg (fun text : String => text.toList[6]?) (violation_inj reported)
    simp at letters
  · split at reported
    · have letters := congrArg (fun text : String => text.toList[0]?) (violation_inj reported)
      simp at letters
    · split at reported
      · cases reported
      · split at reported <;> cases reported

theorem ofEnding_framesLeft {ending : Ending α} (entry : ending.Orderly → frames.depth = 1)
    {count : Nat} (reported : ofEnding id ending frames reason = .failed (framesLeft id count)) :
    ∃ error, ending = .unwound (.failed error) := by
  rcases ending with value | unwind | payload
  · exact absurd reported (ofFrames_ne_framesLeft (entry trivial) false count)
  · cases unwind with
    | pause => exact absurd reported (ofFrames_ne_framesLeft (entry trivial) true count)
    | failed error => exact ⟨error, rfl⟩
    | exit => cases reported
    | cancelled => cases reported
  · cases reported

end Settlement

/-- Routine code that is composed of the operations of a context comes back in the frame in which it
started, in every wound stack and whatever it makes of the answers that it gets, unless it panics.
No frame is left that was not entered. So a run of such a routine ends in the entry frame, and the
report of frames that are still wound is none of the run's own. -/
theorem composed_code_keeps_depth {enter : ρ → Script ρ ε} (composed : ∀ r, (enter r).Composed)
    (depth : Nat) :
    (∀ (script : Script ρ ε) (cx : Context ρ ε), script.Composed → 1 ≤ cx.frames.depth →
      let ran := script.exec (Script.execute enter depth) cx
      (∀ s ∈ script.trace .closings (Script.execute enter depth)
          (Script.executeTrace .closings enter depth) cx,
        ∀ misuse, s.leave ≠ .error misuse) ∧
      (ran.1.Orderly → ran.2.frames.depth = cx.frames.depth)) ∧
    ∀ (w : World ρ ε) (task : Nat) (cx : Context ρ ε), w.entry task = some cx →
      let ran := Script.execute enter depth cx
      (∀ s ∈ Script.executeTrace .closings enter depth cx, ∀ misuse, s.leave ≠ .error misuse) ∧
      (ran.1.Orderly → ran.2.frames.depth = 1) ∧
      ∀ count, (w.runTask (Script.execute enter depth) task).1 =
          .failed (Settlement.framesLeft cx.id count) →
        ∃ error, ran.1 = .unwound (.failed error) := by
  have matched {s : FrameStack ρ} (nested : 2 ≤ s.depth) (misuse : Misuse) :
      s.leave ≠ .error misuse := by
    obtain ⟨departure, changed, left, -⟩ := FrameStack.leave_nested nested
    simp [left]
  have executes := Script.execute_balanced composed depth
  constructor
  · intro script cx own wound ran
    obtain ⟨closed, same⟩ := Script.exec_balanced executes script own cx wound
    exact ⟨fun s member => matched (closed s member), same⟩
  · intro w task cx entered ran
    have entry := World.entry_depth entered
    obtain ⟨closed, same⟩ := executes cx (Nat.le_of_eq entry.symm)
    have back : ran.1.Orderly → ran.2.frames.depth = 1 := fun orderly =>
      (same orderly).trans entry
    refine ⟨fun s member => matched (closed s member), back, ?_⟩
    intro count reported
    rw [World.runTask_entered entered] at reported
    exact Settlement.ofEnding_framesLeft back (Settlement.answer_failed_iff.mp reported)

namespace Script

def regardless (script : Script ρ ε) : Ending α → Script ρ ε
  | .panicked payload => .done (.panicked payload)
  | .returned _ | .unwound _ => script

theorem regardless_composed {script : Script ρ ε} (composed : script.Composed)
    (reply : Ending α) : (script.regardless reply).Composed := by
  cases reply with
  | panicked payload => trivial
  | returned _ | unwound _ => exact composed

def passesOverAll : Bool → Script Bool Unit
  | false => .act (.pause .yield) fun _ => .done (.unwound .pause)
  | true =>
    .call (fun _ => .act (.pause .yield) fun _ => .done (.returned .unit)) <|
      regardless <| .invoke false <|
      regardless <| .act (.exit .unit) fun _ => .done (.returned .unit)

theorem passesOverAll_composed (object : Bool) : (passesOverAll object).Composed := by
  cases object with
  | false => exact ⟨trivial, fun _ => trivial⟩
  | true =>
    have leaves : (Script.act (.exit .unit) fun _ => .done (.returned .unit) :
        Script Bool Unit).Composed := ⟨trivial, fun _ => trivial⟩
    have invokes : (Script.invoke false (regardless <| .act (.exit .unit) fun _ =>
        .done (.returned .unit)) : Script Bool Unit).Composed :=
      ⟨fun _ => rfl, regardless_composed leaves⟩
    exact ⟨⟨trivial, fun _ => trivial⟩, fun _ => rfl, regardless_composed invokes⟩

end Script

theorem passed_over_suspension_keeps_depth :
    let w := ({ scheduler := default } : World Bool Unit).addTask true 0
    ∃ cx, w.entry 0 = some cx ∧
      (Script.execute Script.passesOverAll 2 cx).1.Orderly ∧
      (Script.execute Script.passesOverAll 2 cx).2.frames.pausing ∧
      (Script.execute Script.passesOverAll 2 cx).2.frames.depth = 1 := by
  obtain ⟨-, entry⟩ := composed_code_keeps_depth Script.passesOverAll_composed 2
  refine ⟨_, rfl, trivial, ?_, ?_⟩
  · rfl
  · obtain ⟨-, back, -⟩ :=
      entry (({ scheduler := default } : World Bool Unit).addTask true 0) 0 _ rfl
    exact back trivial

end ResumableTasks
