import ResumableTasks.Proofs.DepthBalance
import ResumableTasks.Proofs.ReachedSentinel
/-!
Frames that are recovered after frames above them were abandoned. A recovery gives a frame its place
back and drops what the abandoned frames held, but it does not end a suspension that they began, so
whether the frame is live again depends on what happened in the run before it. The incidents of a
run are the suspensions that begin in it and its recoveries.
-/
namespace ResumableTasks

variable {ρ ε α : Type}

/-- A primitive sets its sentinel or a frame captures its locals; or a frame is recovered, between
these two contexts. -/
inductive Incident (ρ ε : Type) where
  | suspension
  | recovery (abandoned recovered : Context ρ ε)

namespace Context

def pauseIncidents (cx : Context ρ ε) : List (Incident ρ ε) :=
  if cx.frames.pausing ∨ (cx.frames.slotAt cx.frames.depth).isSome then [] else [.suspension]

def suspendIncidents (cx : Context ρ ε) (suspension : Suspension) (marker : UInt32)
    (locals : Captured ρ) : List (Incident ρ ε) :=
  if suspension.hasState then []
  else match cx.frames.capture marker locals with
    | .ok _ => [.suspension]
    | .error _ => []

def recoveryIncidents (cx : Context ρ ε) (trace : CallTrace) : List (Incident ρ ε) :=
  match cx.recoverDepth trace with
  | (.ok _, recovered) => [.recovery cx recovered]
  | (.error _, _) => []

end Context

def Tracer.incidents : Tracer ρ ε (Incident ρ ε) where
  op
    | cx, .pause _ => cx.pauseIncidents
    | cx, .suspend suspension marker locals => cx.suspendIncidents suspension marker (.value locals)
    | cx, .recoverDepth trace => cx.recoveryIncidents trace
    | _, _ => []

theorem append_singleton_split {β : Type} {log before after : List β} {last middle : β}
    (split : log ++ [last] = before ++ middle :: after) :
    (∃ rest, log = before ++ middle :: rest) ∨ log = before ∧ last = middle := by
  rcases List.eq_nil_or_concat after with rfl | ⟨rest, final, rfl⟩
  · obtain ⟨same, tail⟩ := List.append_inj' split rfl
    exact .inr ⟨same, List.head_eq_of_cons_eq tail⟩
  · rw [List.concat_eq_append, ← List.cons_append, ← List.append_assoc] at split
    exact .inl ⟨rest, (List.append_inj' split rfl).1⟩

/-- A log of incidents agrees with the stack of the frame that is current now. A suspension is under
way since the first one began, and a recovery takes over the one that the abandoned frames were in,
if any. -/
structure Recorded (log : List (Incident ρ ε)) (s : FrameStack ρ) : Prop where
  pausing : s.pausing = true ↔ .suspension ∈ log
  recoveries : ∀ before abandoned recovered after,
    log = before ++ .recovery abandoned recovered :: after →
      (abandoned.frames.pausing = true ↔ .suspension ∈ before) ∧
      ∃ trace marker, abandoned.recoverDepth trace = (.ok marker, recovered)

namespace Recorded

variable {log : List (Incident ρ ε)} {s s' : FrameStack ρ}

theorem start (live : s.pausing = false) : Recorded ([] : List (Incident ρ ε)) s where
  pausing := by simp [live]
  recoveries before abandoned recovered after split := by simp at split

theorem congr (recorded : Recorded log s) (same : s'.pausing = s.pausing) : Recorded log s' where
  pausing := same ▸ recorded.pausing
  recoveries := recorded.recoveries

theorem suspension (recorded : Recorded log s) (pausing : s'.pausing = true) :
    Recorded (log ++ [.suspension]) s' where
  pausing := by simp [pausing]
  recoveries before abandoned recovered after split := by
    rcases append_singleton_split split with ⟨rest, earlier⟩ | ⟨-, other⟩
    · exact recorded.recoveries before abandoned recovered rest earlier
    · cases other

theorem recovery {abandoned recovered : Context ρ ε} {trace : CallTrace} {marker : UInt32}
    (recorded : Recorded log abandoned.frames)
    (succeeded : abandoned.recoverDepth trace = (.ok marker, recovered))
    (same : recovered.frames.pausing = abandoned.frames.pausing) :
    Recorded (log ++ [.recovery abandoned recovered]) recovered.frames where
  pausing := by
    rw [same, recorded.pausing, List.mem_append]
    simp
  recoveries before abandoned' recovered' after split := by
    rcases append_singleton_split split with ⟨rest, earlier⟩ | ⟨rfl, own⟩
    · exact recorded.recoveries before abandoned' recovered' rest earlier
    · cases own
      exact ⟨recorded.pausing, trace, marker, succeeded⟩

end Recorded

theorem FrameStack.leave_pausing {s s' : FrameStack ρ} {departure : Departure}
    (left : s.leave = .ok (departure, s')) :
    s'.pausing = s.pausing ∧ departure.pausing = s.pausing := by
  simp only [leave] at left
  split at left
  · cases left
  · split at left
    · obtain ⟨rfl, rfl⟩ := Prod.mk.inj (Except.ok.inj left)
      exact ⟨rfl, rfl⟩
    · obtain ⟨rfl, rfl⟩ := Prod.mk.inj (Except.ok.inj left)
      exact ⟨rfl, rfl⟩

namespace Context

def Records (incidents : Context ρ ε → List (Incident ρ ε))
    (code : Context ρ ε → Ending α × Context ρ ε) : Prop :=
  ∀ (cx : Context ρ ε) (log : List (Incident ρ ε)), Recorded log cx.frames →
    Recorded (log ++ incidents cx) (code cx).2.frames

theorem call_records {inner : Context ρ ε → List (Incident ρ ε)}
    {body : Context ρ ε → Ending α × Context ρ ε} (records : Records inner body) :
    Records (callTrace .incidents inner body) (call body) := by
  intro cx log recorded
  have during := records { cx with frames := cx.frames.enter } log (recorded.congr rfl)
  rw [← callTrace_silent .incidents (fun _ => rfl) inner body] at during
  simp only [call]
  generalize body { cx with frames := cx.frames.enter } = ran at during ⊢
  obtain ⟨ending, last⟩ := ran
  cases ending with
  | panicked payload => exact during
  | returned _ | unwound _ =>
    cases left : last.frames.leave with
    | error misuse =>
      simp only [left]
      exact during
    | ok answered =>
      simp only [left]
      exact during.congr (FrameStack.leave_pausing left).1

theorem call_paused (body : Context ρ ε → Ending α × Context ρ ε) (cx : Context ρ ε)
    {suspension : Suspension} (paused : (call body cx).1 = .returned (.paused suspension)) :
    (call body cx).2.frames.pausing = true := by
  simp only [call] at paused ⊢
  generalize body { cx with frames := cx.frames.enter } = ran at paused ⊢
  obtain ⟨ending, last⟩ := ran
  cases ending with
  | panicked payload => cases paused
  | returned value =>
    cases left : last.frames.leave with
    | error misuse =>
      simp only [left] at paused
      cases paused
    | ok answered =>
      simp only [left, answer] at paused
      split at paused <;> cases paused
  | unwound unwind =>
    cases left : last.frames.leave with
    | error misuse =>
      simp only [left] at paused
      cases paused
    | ok answered =>
      obtain ⟨same, told⟩ := FrameStack.leave_pausing left
      simp only [left] at paused ⊢
      cases unwind with
      | pause =>
        simp only [answer] at paused
        split at paused
        · next pausing => exact same.trans (told.symm.trans pausing)
        · cases paused
      | failed _ | exit | cancelled _ => cases paused

theorem suspend_records (suspension : Suspension) (marker : UInt32) (locals : Captured ρ) :
    Records (fun cx : Context ρ ε => cx.suspendIncidents suspension marker locals)
      fun cx => cx.suspend suspension marker locals := by
  intro cx log recorded
  simp only [suspend, suspendIncidents]
  split
  · rw [List.append_nil]
    exact recorded
  · cases captured : cx.frames.capture marker locals with
    | error misuse =>
      rw [List.append_nil]
      exact recorded
    | ok frames =>
      refine recorded.suspension ?_
      simp only [FrameStack.capture] at captured
      split at captured
      · cases captured
      · split at captured
        · cases captured
        · obtain rfl := Except.ok.inj captured
          rfl

theorem suspend_pausing (cx : Context ρ ε) (pausing : cx.frames.pausing = true)
    (suspension : Suspension) (marker : UInt32) (locals : Captured ρ) :
    (cx.suspend suspension marker locals).2.frames.pausing = true := by
  -- Seen from a record in which a suspension has begun.
  have start : Recorded [(.suspension : Incident ρ ε)] cx.frames :=
    Recorded.suspension (s := {}) (.start rfl) pausing
  have after := suspend_records suspension marker locals cx _ start
  exact after.pausing.mpr (List.mem_append_left _ List.mem_cons_self)

theorem invokeFrame_records {inner : Context ρ ε → List (Incident ρ ε)}
    {execute : Context ρ ε → Ending Unit × Context ρ ε} (records : Records inner execute)
    (given : ρ) :
    Records (invokeFrameTrace .incidents inner execute given) (invokeFrame execute given) := by
  intro cx log recorded
  simp only [invokeFrame, invokeFrameTrace]
  generalize found : (if cx.frames.rewinding = true then cx.frames.take .routine
    else .ok (given, cx.frames)) = target
  rcases target with _ | ⟨target, frames⟩
  · rw [List.append_nil]
    exact recorded
  · have same : frames.pausing = cx.frames.pausing := by
      rcases target_frames found with rfl | rfl <;> rfl
    have after := call_records records { cx with frames, object := target } log
      (recorded.congr same)
    have paused (suspension : Suspension) :=
      @call_paused _ _ _ execute { cx with frames, object := target } suspension
    dsimp only
    generalize call execute { cx with frames, object := target } = called at after paused ⊢
    obtain ⟨ending, last⟩ := called
    rcases ending with (_ | suspension) | unwind | payload
    · exact after
    · have pausing : last.frames.pausing = true := paused suspension rfl
      have passed := suspend_pausing { last with object := cx.object } pausing suspension 1
        (.routine last.object)
      exact after.congr (passed.trans pausing.symm)
    · exact after
    · exact after

theorem togglePause_enter_pausing {s : FrameStack ρ} (live : s.pausing = false) :
    (s.enter.togglePause.toOption.getD s.enter).pausing = true ↔ s.slotAt s.depth = none := by
  rw [s.togglePause_enter]
  rcases there : s.slotAt s.depth with _ | _ | ⟨marker, state⟩
  · exact iff_of_true rfl rfl
  · exact iff_of_false Bool.false_ne_true (by simp)
  · have same : s.enter.pausing = false := live
    simp [Except.toOption, same]

theorem pause_records (reason : WaitReason) :
    Records pauseIncidents fun cx : Context ρ ε => cx.pause reason := by
  intro cx log recorded
  simp only [pause, pauseIncidents]
  cases pausing : cx.frames.pausing with
  | true =>
    simp only [true_or, ↓reduceIte, List.append_nil]
    exact recorded
  | false =>
    have toggled : Recorded (log ++ if (cx.frames.slotAt cx.frames.depth).isSome = true then []
        else [.suspension]) (cx.frames.enter.togglePause.toOption.getD cx.frames.enter) := by
      have begins := togglePause_enter_pausing pausing
      cases there : cx.frames.slotAt cx.frames.depth with
      | none => exact recorded.suspension (begins.mpr there)
      | some slot =>
        have stays : (cx.frames.enter.togglePause.toOption.getD cx.frames.enter).pausing = false :=
          Bool.eq_false_iff.mpr fun now => by cases there.symm.trans (begins.mp now)
        simp only [Option.isSome_some, ↓reduceIte, List.append_nil]
        exact recorded.congr (stays.trans pausing.symm)
    simp only [Bool.false_eq_true, false_or, ↓reduceIte]
    generalize cx.frames.enter.togglePause.toOption.getD cx.frames.enter = frames at toggled
    generalize (if (cx.frames.slotAt cx.frames.depth).isSome = true then []
      else [(Incident.suspension : Incident ρ ε)]) = begun at toggled
    cases left : frames.leave with
    | error misuse => exact toggled
    | ok answered =>
      have after := toggled.congr (FrameStack.leave_pausing left).1
      dsimp only
      split
      · exact after
      · exact after
      · split <;> exact after

theorem recoverDepth_cases (cx : Context ρ ε) (trace : CallTrace) :
    (∃ unwind, (cx.recoverDepth trace).1 = .error unwind ∧
        (cx.recoverDepth trace).2.frames = cx.frames) ∨
      ∃ marker index, (cx.recoverDepth trace).1 = .ok marker ∧
        cx.frames.recoverTo index = .ok (marker, (cx.recoverDepth trace).2.frames) := by
  have unchanged : (cx.stackDepth trace).2.frames = cx.frames := rfl
  simp only [recoverDepth]
  generalize cx.stackDepth trace = counted at unchanged ⊢
  rcases counted with ⟨_ | _ | index, after⟩
  · exact .inl ⟨_, rfl, unchanged⟩
  · exact .inl ⟨_, rfl, unchanged⟩
  · rw [← unchanged]
    cases recovered : after.frames.recoverTo index with
    | error e =>
      simp only [recovered]
      exact .inl ⟨_, rfl, trivial⟩
    | ok answered =>
      simp only [recovered]
      exact .inr ⟨_, index, rfl, recovered⟩

theorem recoverDepth_ok {cx recovered : Context ρ ε} {trace : CallTrace} {marker : UInt32}
    (succeeded : cx.recoverDepth trace = (.ok marker, recovered)) :
    1 ≤ recovered.frames.depth ∧ recovered.frames.pausing = cx.frames.pausing ∧
      ∀ i, recovered.frames.depth ≤ i → recovered.frames.slotAt i = none := by
  have cases := cx.recoverDepth_cases trace
  rw [succeeded] at cases
  rcases cases with ⟨unwind, failed, -⟩ | ⟨_, index, -, found⟩
  · cases failed
  · obtain ⟨-, depth, pausing, slots⟩ := FrameStack.recoverTo_ok found
    replace depth : recovered.frames.depth = index + 1 := depth
    refine ⟨by omega, pausing, fun i above => ?_⟩
    exact (slots i).trans (if_neg (by omega))

theorem recoverDepth_records (trace : CallTrace) {cx : Context ρ ε} {log : List (Incident ρ ε)}
    (recorded : Recorded log cx.frames) :
    Recorded (log ++ cx.recoveryIncidents trace) (cx.recoverDepth trace).2.frames := by
  simp only [recoveryIncidents]
  rcases succeeded : cx.recoverDepth trace with ⟨failed | marker, after⟩
  · have cases := cx.recoverDepth_cases trace
    rw [succeeded] at cases
    rcases cases with ⟨_, -, same⟩ | ⟨_, _, other, -⟩
    · rw [List.append_nil]
      exact recorded.congr (congrArg FrameStack.pausing same)
    · cases other
  · exact recorded.recovery succeeded (recoverDepth_ok succeeded).2.1

end Context

theorem Op.perform_records (execute : Context ρ ε → Ending Unit × Context ρ ε) {op : Op ρ ε}
    (indirect : op.Indirect) {cx : Context ρ ε} {log : List (Incident ρ ε)}
    (recorded : Recorded log cx.frames) :
    Recorded (log ++ Tracer.incidents.op cx op) (op.perform execute cx).2.frames := by
  cases op with
  | pause reason => exact Context.pause_records reason cx log recorded
  | recoverDepth trace => exact Context.recoverDepth_records trace recorded
  | suspend suspension marker locals =>
    exact Context.suspend_records suspension marker (.value locals) cx log recorded
  | frameStep => exact indirect.elim
  | emit | look | object | become | now | restore | exit | errorExit | checkpoint | stackDepth
  | release | cancel | isReady | inspect | run | spawn | live =>
    simp only [Tracer.incidents, List.append_nil]
    exact recorded

namespace Script

theorem exec_records {execute : Context ρ ε → Ending Unit × Context ρ ε}
    {inner : Context ρ ε → List (Incident ρ ε)} (executes : Context.Records inner execute)
    (script : Script ρ ε) (indirect : script.Indirect) :
    Context.Records (script.trace .incidents execute inner) (script.exec execute) := by
  -- Each node hands the log that it extended to what comes after it.
  induction script with
  | done ending =>
    intro cx log recorded
    rw [trace, List.append_nil]
    exact recorded
  | act op next ih =>
    intro cx log recorded
    obtain ⟨own, later⟩ := indirect
    rw [trace, ← List.append_assoc]
    exact ih _ (later _) _ _ (Op.perform_records execute own recorded)
  | call body next bodyIh ih =>
    intro cx log recorded
    obtain ⟨own, later⟩ := indirect
    rw [trace, ← List.append_assoc]
    exact ih _ (later _) _ _ (Context.call_records (bodyIh () own) cx log recorded)
  | invoke object next ih =>
    intro cx log recorded
    have called :=
      Context.call_records (Context.invokeFrame_records executes object) cx log recorded
    rw [trace, ← List.append_assoc]
    exact ih _ (indirect _) _ _ called

theorem execute_records {enter : ρ → Script ρ ε} (indirect : ∀ r, (enter r).Indirect)
    (depth : Nat) :
    Context.Records (executeTrace .incidents enter depth) (execute enter depth) := by
  induction depth with
  | zero =>
    intro cx log recorded
    rw [executeTrace, List.append_nil]
    exact recorded
  | succ depth ih =>
    intro cx log recorded
    exact exec_records ih (enter cx.object) (indirect cx.object) cx log recorded

end Script

namespace Context

/-- A call of code that begins no suspension and comes back with a value, in the frame in which it
was entered, is answered with this value. -/
def Answers (cx : Context ρ ε) : Prop :=
  ∀ (enter : ρ → Script ρ ε) (depth : Nat) (callee : Script ρ ε) (value : Value),
    (∀ r, (enter r).Indirect) → callee.Indirect →
    let execute := Script.execute enter depth
    let inner := Script.executeTrace .incidents enter depth
    let entered := { cx with frames := cx.frames.enter }
    let ran := callee.exec execute entered
    .suspension ∉ callee.trace .incidents execute inner entered → ran.1 = .returned value →
      ran.2.frames.depth = entered.frames.depth →
      (call (callee.exec execute) cx).1 = .returned (.returned value)

def Suspends (cx : Context ρ ε) : Prop :=
  ∀ reason, let paused := cx.pause reason
    (∃ suspension, paused.1 = .returned (.paused suspension)) ∧ paused.2.reason = some reason ∧
      paused.2.frames.pausing = true ∧ paused.2.frames.depth = cx.frames.depth

theorem answers_iff {cx : Context ρ ε} (wound : 1 ≤ cx.frames.depth) :
    cx.Answers ↔ cx.frames.pausing = false := by
  have nested : 2 ≤ cx.frames.enter.depth := Nat.succ_le_succ wound
  constructor
  · intro answers
    refine Bool.eq_false_iff.mpr fun pausing => ?_
    have answered := answers (fun _ => .done (.returned .unit)) 0 (.done (.returned .unit)) .unit
      (fun _ => trivial) trivial (by simp [Script.trace]) rfl rfl
    obtain ⟨departure, changed, left, -⟩ := FrameStack.leave_nested nested
    have told : departure.pausing = true := (FrameStack.leave_pausing left).2.trans pausing
    simp only [call, Script.exec, left, answer, told, ↓reduceIte] at answered
    cases answered
  · intro live enter depth callee value indirect own execute inner entered ran quiet returned back
    have start : Recorded ([] : List (Incident ρ ε)) entered.frames := .start live
    have after := Script.exec_records (Script.execute_records indirect depth) callee own entered []
      start
    have still : ran.2.frames.pausing = false := Bool.eq_false_iff.mpr fun begun =>
      quiet (after.pausing.mp begun)
    have deep : 2 ≤ ran.2.frames.depth := back ▸ nested
    obtain ⟨departure, changed, left, -⟩ := FrameStack.leave_nested deep
    have told : departure.pausing = false := (FrameStack.leave_pausing left).2.trans still
    have same : call (callee.exec execute) cx =
        (Context.answer { ran.2 with frames := changed } departure (.returned value),
          { ran.2 with frames := changed }) := by
      have split : callee.exec execute entered = (.returned value, ran.2) := by rw [← returned]
      simp only [call]
      rw [split]
      simp only [left]
    rw [same]
    simp [answer, told]

theorem suspends_iff {cx : Context ρ ε} (wound : 1 ≤ cx.frames.depth)
    (empty : cx.frames.slotAt cx.frames.depth = none) :
    cx.Suspends ↔ cx.frames.pausing = false := by
  constructor
  · intro suspends
    refine Bool.eq_false_iff.mpr fun pausing => ?_
    have unchanged (reason : WaitReason) : (cx.pause reason).2 = cx := by
      simp only [pause, if_pos pausing]
    have first := (suspends .yield).2.1
    have other := (suspends (.done (.ok .ok))).2.1
    rw [unchanged] at first other
    cases first.symm.trans other
  · intro live reason
    have fresh : cx.frames.enter.rewinding = false := by
      simp [FrameStack.rewinding, FrameStack.marker_enter, FrameStack.markerAt, empty]
    obtain ⟨frames, toggled, depth, pausing⟩ : ∃ frames, cx.frames.enter.togglePause = .ok frames ∧
        frames.depth = cx.frames.depth + 1 ∧ frames.pausing = true := by
      rw [cx.frames.togglePause_enter, empty]
      exact ⟨_, rfl, rfl, rfl⟩
    have nested : 2 ≤ frames.depth := by omega
    obtain ⟨departure, changed, left, shallower⟩ := FrameStack.leave_nested nested
    obtain ⟨same, told⟩ := FrameStack.leave_pausing left
    simp only [pause, live, Bool.false_eq_true, ↓reduceIte, fresh, toggled, Except.toOption,
      Option.getD_some, left, told.trans pausing]
    exact ⟨⟨_, rfl⟩, trivial, same.trans pausing, by omega⟩

end Context

theorem Settlement.ofFrames_done_iff (id : TaskId) {frames : FrameStack ρ}
    (reason : Option WaitReason) (entry : frames.depth = 1) (live : frames.pausing = false) :
    (ofFrames id false frames reason).answer = .done ↔ frames.retained = 0 := by
  have reported := ofFrames_reported_iff id false frames reason
  simp only [entry, live, true_and, forall_const] at reported
  rcases ofFrames_live id false reason entry live with ⟨outcome, settled⟩ | ⟨detail, settled⟩
  · rw [settled] at reported ⊢
    refine iff_of_true rfl (Classical.byContradiction fun held => ?_)
    obtain ⟨error, failed, -⟩ := reported.mpr held
    cases failed
  · rw [settled] at reported ⊢
    exact iff_of_false nofun (reported.mp ⟨_, rfl, rfl⟩)

open Incident in
/-- The exact condition under which the frame that a recovery succeeds in giving its place is live,
in every run of every routine that works through its context: no suspension began in the run before
it, in the frames that were abandoned or elsewhere. The promise is that no suspension is under way
in the recovered frame, that a call from it is answered with what the callee returns, that a
primitive suspends with its condition attached, and that an entry routine which then returns from
its own frame, with no other suspension, does not leave its task suspended. -/
theorem World.recovered_frame_live_iff (w : World ρ ε) (task : Nat) (enter : ρ → Script ρ ε)
    (indirect : ∀ r, (enter r).Indirect) (depth : Nat) {before after : List (Incident ρ ε)}
    {abandoned recovered : Context ρ ε}
    (happened : w.trace .incidents enter depth task =
      before ++ .recovery abandoned recovered :: after) :
    (∃ trace marker, abandoned.recoverDepth trace = (.ok marker, recovered)) ∧
    (recovered.frames.pausing = false ↔ suspension ∉ before) ∧
    (recovered.Answers ↔ suspension ∉ before) ∧
    (recovered.Suspends ↔ suspension ∉ before) ∧
    ∀ cx, w.entry task = some cx → suspension ∉ after →
      let ran := Script.execute enter depth cx
      let answer := (w.runTask (Script.execute enter depth) task).1
      ran.1 = .returned () → ran.2.frames.depth = 1 →
        (answer ≠ .suspended ↔ suspension ∉ before ∨ ended ran.2.reason ≠ none) ∧
        (suspension ∉ before → (answer = .done ↔ ran.2.frames.retained = 0)) := by
  cases entered : w.entry task with
  | none => simp [trace, entered] at happened
  | some cx =>
    have recorded : Recorded (before ++ .recovery abandoned recovered :: after)
        (Script.execute enter depth cx).2.frames := by
      have executed := Script.execute_records indirect depth cx [] (.start (entry_live entered))
      simpa only [← happened, trace, entered, List.nil_append] using executed
    obtain ⟨begun, trace, marker, succeeded⟩ := recorded.recoveries _ _ _ _ rfl
    obtain ⟨wound, same, empty⟩ := Context.recoverDepth_ok succeeded
    have live : recovered.frames.pausing = false ↔ suspension ∉ before := by
      rw [same, ← begun, Bool.not_eq_true]
    refine ⟨⟨trace, marker, succeeded⟩, live, (Context.answers_iff wound).trans live,
      (Context.suspends_iff wound (empty _ (Nat.le_refl _))).trans live, ?_⟩
    intro _ other quiet ran answer returned entry
    obtain rfl := Option.some.inj other
    have pausing : ran.2.frames.pausing = true ↔ suspension ∈ before := by
      simp [recorded.pausing, quiet, ran]
    have settled : answer = (Settlement.ofFrames cx.id false ran.2.frames ran.2.reason).answer := by
      simp only [answer, runTask_entered entered]
      rw [show (Script.execute enter depth cx).1 = .returned () from returned]
      rfl
    have suspends : answer = .suspended ↔ suspension ∈ before ∧ ended ran.2.reason = none := by
      rw [settled, Settlement.answer_suspended_iff]
      simp only [Settlement.ofFrames_suspended_iff, entry, pausing, true_and]
      constructor
      · rintro ⟨_, _, begun, going, -⟩
        exact ⟨begun, going⟩
      · rintro ⟨begun, going⟩
        exact ⟨_, _, begun, going, rfl, rfl⟩
    constructor
    · rw [ne_eq, suspends, Classical.not_and_iff_not_or_not]
    · intro unbegun
      have still : ran.2.frames.pausing = false := Bool.eq_false_iff.mpr fun now =>
        unbegun (pausing.mp now)
      rw [settled]
      exact Settlement.ofFrames_done_iff cx.id ran.2.reason entry still

namespace Script

def nearBoundary : CallTrace :=
  ⟨[{ path := "weft::app", routine := "recover" }, { path := "weft::app", routine := "entry" },
    .boundary]⟩

def recovers (callee : Script Unit Unit) : Script Unit Unit :=
  .call (fun _ => callee) fun _ =>
    .act (.recoverDepth nearBoundary) fun _ => .done (.returned .unit)

def panics : Script Unit Unit := .done (.panicked .unit)

def abandonsPause : Script Unit Unit := .act (.pause .yield) fun _ => panics

end Script

theorem recovers_indirect {callee : Script Unit Unit} (indirect : callee.Indirect) :
    (Script.recovers callee).Indirect :=
  ⟨indirect, fun _ => ⟨trivial, fun _ => trivial⟩⟩

def World.ofOne : World Unit Unit := ({ scheduler := default } : World Unit Unit).addTask () 0

theorem recovered_frame_finishes :
    ∃ abandoned recovered,
      World.ofOne.trace .incidents (fun _ => Script.recovers Script.panics) 1 0 =
        [] ++ .recovery abandoned recovered :: [] ∧
      recovered.Answers ∧ recovered.Suspends ∧
      (World.ofOne.runTask (Script.execute (fun _ => Script.recovers Script.panics) 1) 0).1 =
        .done := by
  have indirect : ∀ r : Unit, (Script.recovers Script.panics).Indirect :=
    fun _ => recovers_indirect trivial
  obtain ⟨abandoned, recovered, happened⟩ : ∃ abandoned recovered,
      World.ofOne.trace .incidents (fun _ => Script.recovers Script.panics) 1 0 =
        [] ++ .recovery abandoned recovered :: [] := ⟨_, _, rfl⟩
  obtain ⟨-, -, answers, suspends, ends⟩ :=
    World.recovered_frame_live_iff World.ofOne 0 _ indirect 1 happened
  have quiet : (.suspension : Incident Unit Unit) ∉ [] := by simp
  refine ⟨abandoned, recovered, happened, answers.mpr quiet, suspends.mpr quiet, ?_⟩
  exact ((ends _ rfl quiet rfl rfl).2 quiet).mpr rfl

/-- The suspension that the abandoned callee began outlives the recovery: a call from the recovered
frame is not answered with its value, a primitive does not attach its condition, and the task is
suspended by a routine that returned. -/
theorem suspension_outlives_recovery :
    ∃ abandoned recovered,
      World.ofOne.trace .incidents (fun _ => Script.recovers Script.abandonsPause) 1 0 =
        [.suspension, .recovery abandoned recovered] ∧
      recovered.frames.pausing = true ∧ ¬ recovered.Answers ∧ ¬ recovered.Suspends ∧
      (∃ cx, World.ofOne.entry 0 = some cx ∧
        (Script.execute (fun _ => Script.recovers Script.abandonsPause) 1 cx).1 = .returned ()) ∧
      (World.ofOne.runTask (Script.execute (fun _ => Script.recovers Script.abandonsPause) 1) 0).1
        = .suspended := by
  refine ⟨_, _, rfl, ?_, ?_, ?_, ⟨_, rfl, rfl⟩, ?_⟩
  · decide +kernel
  · rw [Context.answers_iff (by decide +kernel)]
    decide +kernel
  · rw [Context.suspends_iff (by decide +kernel) (by decide +kernel)]
    decide +kernel
  · decide +kernel

end ResumableTasks
