import ResumableTasks.Proofs.TaskLifecycle
/-!
When a suspended task can be resumed. Nothing that ends a run looks at the slots that stay behind:
the entry routine is trusted to have captured its locals, and so is every routine that went on after
it was told that its callee is no longer there. What decides is how each frame was left. The
partings of a run are the frames that it left while a suspension was under way, and the stack that
stays behind holds at each depth what the last frame that was left there held.
-/
namespace ResumableTasks

variable {ρ ε α : Type}

/-- Captured locals from the entry frame inwards, the sentinel, and nothing further in. -/
def Stacked (content : Nat → Option (Slot ρ)) : Prop :=
  ∃ k, 1 ≤ k ∧ (∀ i < k, (content i).any Slot.isSaved) ∧ content k = some .pause ∧
    ∀ i, k < i → content i = none

/-- What a suspended task should be: it waits for something, and its frames can be entered again. -/
structure Task.Resumable (t : Task ρ) : Prop where
  waits : ∃ reason, t.reason = some reason ∧ reason.isTerminal = false
  stacked : Stacked t.frames.slotAt

structure Parting (ρ : Type) where
  frames : FrameStack ρ
  reason : Option WaitReason

namespace Parting

/-- What the last frame to be left with this index held. Where none was left, it is what the first
parting found. -/
def lastHeld (log : List (Parting ρ)) (index : Nat) : Option (Slot ρ) :=
  match log.reverse.find? fun p => p.frames.depth = index + 1 with
  | some p => p.frames.slotAt index
  | none => log.head?.bind fun p => p.frames.slotAt index

def waitedFor (log : List (Parting ρ)) : Option WaitReason := log.head?.bind Parting.reason

theorem lastHeld_append (log : List (Parting ρ)) (p : Parting ρ) (index : Nat) :
    lastHeld (log ++ [p]) index =
      if p.frames.depth = index + 1 ∨ log = [] then p.frames.slotAt index
      else lastHeld log index := by
  by_cases here : p.frames.depth = index + 1
  · simp [lastHeld, here]
  · cases log with
    | nil => simp [lastHeld, here]
    | cons first rest => simp [lastHeld, here]

theorem waitedFor_append (log : List (Parting ρ)) (p : Parting ρ) :
    waitedFor (log ++ [p]) = if log = [] then p.reason else waitedFor log := by
  cases log <;> simp [waitedFor]

end Parting

namespace Context

def parting (cx : Context ρ ε) : List (Parting ρ) :=
  if cx.frames.pausing then [⟨cx.frames, cx.reason⟩] else []

def callPartings (inner : Context ρ ε → List (Parting ρ))
    (body : Context ρ ε → Ending α × Context ρ ε) (cx : Context ρ ε) : List (Parting ρ) :=
  let entered := { cx with frames := cx.frames.enter }
  inner entered ++ match body entered with
    | (.panicked _, _) => []
    | (_, cx) => cx.parting

def invokeFramePartings (inner : Context ρ ε → List (Parting ρ))
    (execute : Context ρ ε → Ending Unit × Context ρ ε) (given : ρ) (cx : Context ρ ε) :
    List (Parting ρ) :=
  match if cx.frames.rewinding then cx.frames.take .routine else .ok (given, cx.frames) with
  | .error _ => []
  | .ok (target, frames) => callPartings inner execute { cx with frames, object := target }

def pausePartings (cx : Context ρ ε) (reason : WaitReason) : List (Parting ρ) :=
  if cx.frames.pausing then []
  else
    let entered := cx.frames.enter
    ({ cx with
      reason := if entered.rewinding then none else some reason
      frames := entered.togglePause.toOption.getD entered }).parting

end Context

def Op.OnContext : Op ρ ε → Prop
  | .frameStep _ | .recoverDepth _ => False
  | _ => True

def Op.partings (cx : Context ρ ε) : Op ρ ε → List (Parting ρ)
  | .pause reason => cx.pausePartings reason
  | _ => []

namespace Script

def OnContext : Script ρ ε → Prop
  | .done _ => True
  | .act op next => op.OnContext ∧ ∀ reply, (next reply).OnContext
  | .call body next => (body ()).OnContext ∧ ∀ reply, (next reply).OnContext
  | .invoke _ next => ∀ reply, (next reply).OnContext

def partings (execute : Context ρ ε → Ending Unit × Context ρ ε)
    (inner : Context ρ ε → List (Parting ρ)) : Script ρ ε → Context ρ ε → List (Parting ρ)
  | .done _, _ => []
  | .act op next, cx =>
    let performed := op.perform execute cx
    op.partings cx ++ (next performed.1).partings execute inner performed.2
  | .call body next, cx =>
    let run := fun cx => (body ()).exec execute cx
    let called := Context.call run cx
    Context.callPartings (fun cx => (body ()).partings execute inner cx) run cx ++
      (next called.1).partings execute inner called.2
  | .invoke object next, cx =>
    let called := Context.invoke execute object cx
    Context.callPartings (Context.invokeFramePartings inner execute object)
        (Context.invokeFrame execute object) cx ++
      (next called.1).partings execute inner called.2

def executePartings (enter : ρ → Script ρ ε) : Nat → Context ρ ε → List (Parting ρ)
  | 0, _ => []
  | depth + 1, cx =>
    (enter cx.object).partings (execute enter depth) (executePartings enter depth) cx

end Script

def World.partings (w : World ρ ε) (enter : ρ → Script ρ ε) (depth task : Nat) :
    List (Parting ρ) :=
  match w.entry task with
  | none => []
  | some cx => Script.executePartings enter depth cx ++ (Script.execute enter depth cx).2.parting

namespace FrameStack

theorem slotAt_enter (s : FrameStack ρ) (index : Nat) : s.enter.slotAt index = s.slotAt index := by
  simp only [enter, slotAt]
  split
  · next short =>
    rcases Nat.lt_trichotomy index s.slots.length with inside | last | beyond
    · rw [List.getElem?_append_left inside]
    · rw [last, List.getElem?_concat_length]
      simp
    · rw [List.getElem?_eq_none (by simp; omega), List.getElem?_eq_none (by omega)]
  · rfl

theorem marker_enter (s : FrameStack ρ) : s.enter.marker = s.markerAt s.depth := by
  have same : s.enter.markerAt s.depth = s.markerAt s.depth := by
    simp only [markerAt, slotAt_enter]
  exact same

theorem slotAt_setSlot_above (s : FrameStack ρ) {index : Nat} (above : s.depth ≤ index)
    (entered : 1 ≤ s.depth) (slot : Option (Slot ρ)) :
    (s.setSlot (s.depth - 1) slot).slotAt index = s.slotAt index := by
  simp only [setSlot, slotAt]
  rw [List.getElem?_set_ne (by omega)]

end FrameStack

/-- A log of partings agrees with the stack and the wait reason of the frame that is current now.
The slots further in than this frame were written last by the partings; the reason has not changed
since the first of them, unless the routine has ended the task. -/
structure Logged (log : List (Parting ρ)) (frames : FrameStack ρ) (reason : Option WaitReason) :
    Prop where
  entered : 1 ≤ frames.depth
  live : frames.pausing = false → log = []
  held : log ≠ [] → ∀ index, frames.depth ≤ index →
    frames.slotAt index = Parting.lastHeld log index
  waits : log ≠ [] → ended reason = none → reason = Parting.waitedFor log

namespace Logged

variable {log : List (Parting ρ)} {frames changed : FrameStack ρ} {reason : Option WaitReason}

theorem start (entered : 1 ≤ frames.depth) : Logged [] frames reason :=
  ⟨entered, fun _ => rfl, fun some => absurd rfl some, fun some => absurd rfl some⟩

theorem frame (logged : Logged log frames reason) (deeper : frames.depth ≤ changed.depth)
    (pausing : changed.pausing = false → frames.pausing = false)
    (same : ∀ index, changed.depth ≤ index → changed.slotAt index = frames.slotAt index) :
    Logged log changed reason where
  entered := Nat.le_trans logged.entered deeper
  live settled := logged.live (pausing settled)
  held some index above := by
    rw [same index above]
    exact logged.held some index (Nat.le_trans deeper above)
  waits := logged.waits

theorem write (logged : Logged log frames reason) (slot : Option (Slot ρ)) {pausing : Bool}
    (kept : pausing = false → frames.pausing = false) :
    Logged log { frames.setSlot (frames.depth - 1) slot with pausing } reason :=
  logged.frame (Nat.le_refl _) kept fun _ above =>
    frames.slotAt_setSlot_above above logged.entered slot

theorem enter (logged : Logged log frames reason) : Logged log frames.enter reason :=
  logged.frame (Nat.le_succ _) id fun index _ => frames.slotAt_enter index

theorem exit (logged : Logged log frames reason) (outcome : TaskOutcome) :
    Logged log frames (some (.done outcome)) where
  entered := logged.entered
  live := logged.live
  held := logged.held
  waits _ unended := by simp [ended, WaitReason.outcome?] at unended

theorem held_after (logged : Logged log frames reason) (index : Nat)
    (above : frames.depth ≤ index + 1) :
    frames.slotAt index = Parting.lastHeld (log ++ [⟨frames, reason⟩]) index := by
  rw [Parting.lastHeld_append]
  by_cases own : frames.depth = index + 1
  · simp [own]
  · cases none : log.isEmpty with
    | true =>
      obtain rfl : log = [] := List.isEmpty_iff.mp none
      simp
    | false =>
      have some : log ≠ [] := by simpa using none
      simp only [own, some, or_self, ↓reduceIte]
      exact logged.held some index (by omega)

theorem waits_after (logged : Logged log frames reason) (unended : ended reason = none) :
    reason = Parting.waitedFor (log ++ [⟨frames, reason⟩]) := by
  rw [Parting.waitedFor_append]
  split
  · rfl
  · next some => exact logged.waits some unended

theorem leave (logged : Logged log frames reason) (nested : 2 ≤ frames.depth) :
    ∃ departure changed, frames.leave = .ok (departure, changed) ∧
      Logged (log ++ if frames.pausing then [⟨frames, reason⟩] else []) changed reason ∧
      changed.depth = frames.depth - 1 := by
  have deep : ¬ frames.depth < 2 := by omega
  have around : 1 ≤ frames.depth - 1 := by omega
  simp only [FrameStack.leave, deep, ↓reduceIte]
  cases pausing : frames.pausing with
  | false =>
    obtain rfl : log = [] := logged.live pausing
    exact ⟨_, _, rfl, Logged.start around, rfl⟩
  | true =>
    refine ⟨_, _, rfl, ⟨around, by simp, ?_, ?_⟩, rfl⟩
    · intro _ index above
      replace above : frames.depth - 1 ≤ index := above
      exact logged.held_after index (by omega)
    · intro _ unended
      exact logged.waits_after unended

end Logged

namespace Context

/-- The partings of a piece of routine code are what it adds to the log, and it never leaves the
frame in which it started. -/
def Logs (partings : Context ρ ε → List (Parting ρ))
    (code : Context ρ ε → Ending α × Context ρ ε) : Prop :=
  ∀ (cx : Context ρ ε) (log : List (Parting ρ)), Logged log cx.frames cx.reason →
    Logged (log ++ partings cx) (code cx).2.frames (code cx).2.reason ∧
      cx.frames.depth ≤ (code cx).2.frames.depth

theorem call_logs {inner : Context ρ ε → List (Parting ρ)}
    {body : Context ρ ε → Ending α × Context ρ ε} (logs : Logs inner body) :
    Logs (callPartings inner body) (call body) := by
  intro cx log logged
  obtain ⟨during, deeper⟩ := logs { cx with frames := cx.frames.enter } log logged.enter
  replace deeper : cx.frames.depth + 1 ≤ _ := deeper
  have nested := Nat.le_trans (Nat.succ_le_succ logged.entered) deeper
  simp only [call, callPartings]
  generalize body { cx with frames := cx.frames.enter } = ran at during deeper nested ⊢
  obtain ⟨ending, last⟩ := ran
  cases ending with
  | panicked payload =>
    rw [List.append_nil]
    exact ⟨during, Nat.le_of_succ_le deeper⟩
  | returned _ | unwound _ =>
    obtain ⟨departure, changed, left, after, shallower⟩ := during.leave nested
    simp only [left, parting]
    rw [← List.append_assoc, shallower]
    exact ⟨after, Nat.le_sub_one_of_lt deeper⟩

theorem suspend_logs (suspension : Suspension) (marker : UInt32) (locals : Captured ρ) :
    Logs (fun _ => []) fun cx : Context ρ ε => cx.suspend suspension marker locals := by
  intro cx log logged
  rw [List.append_nil]
  simp only [suspend]
  split
  · exact ⟨logged, Nat.le_refl _⟩
  · simp only [FrameStack.capture]
    split
    · next captured =>
      split at captured
      · simp at captured
      · split at captured
        · simp at captured
        · obtain rfl := Except.ok.inj captured
          exact ⟨logged.write _ (by simp), Nat.le_refl _⟩
    · exact ⟨logged, Nat.le_refl _⟩

theorem invokeFrame_logs {inner : Context ρ ε → List (Parting ρ)}
    {execute : Context ρ ε → Ending Unit × Context ρ ε} (logs : Logs inner execute) (given : ρ) :
    Logs (invokeFramePartings inner execute given) (invokeFrame execute given) := by
  intro cx log logged
  simp only [invokeFrame, invokeFramePartings]
  generalize found : (if cx.frames.rewinding = true then cx.frames.take .routine
    else .ok (given, cx.frames)) = target
  rcases target with _ | ⟨target, frames⟩
  · rw [List.append_nil]
    exact ⟨logged, Nat.le_refl _⟩
  · have taken : Logged log frames cx.reason ∧ frames.depth = cx.frames.depth := by
      split at found
      · simp only [FrameStack.take, Except.map] at found
        split at found
        · simp at found
        · obtain ⟨-, rfl⟩ := Prod.mk.inj (Except.ok.inj found)
          exact ⟨logged.write none fun same => same, rfl⟩
      · obtain ⟨-, rfl⟩ := Prod.mk.inj (Except.ok.inj found)
        exact ⟨logged, rfl⟩
    obtain ⟨after, deeper⟩ :=
      call_logs logs { cx with frames, object := target } log taken.1
    replace deeper : frames.depth ≤ _ := deeper
    rw [taken.2] at deeper
    dsimp only
    generalize call execute { cx with frames, object := target } = called at after deeper ⊢
    obtain ⟨ending, last⟩ := called
    rcases ending with (_ | suspension) | unwind | payload
    · exact ⟨after, deeper⟩
    · obtain ⟨passed, same⟩ :=
        suspend_logs suspension 1 (.routine last.object) { last with object := cx.object } _ after
      rw [List.append_nil] at passed
      exact ⟨passed, Nat.le_trans deeper same⟩
    · exact ⟨after, deeper⟩
    · exact ⟨after, deeper⟩

theorem pause_logs (reason : WaitReason) :
    Logs (fun cx : Context ρ ε => cx.pausePartings reason) fun cx => cx.pause reason := by
  intro cx log logged
  simp only [pause, pausePartings]
  cases pausing : cx.frames.pausing with
  | true =>
    simp only [↓reduceIte, List.append_nil]
    exact ⟨logged, Nat.le_refl _⟩
  | false =>
    obtain rfl : log = [] := logged.live pausing
    simp only [Bool.false_eq_true, ↓reduceIte]
    have entered : (cx.frames.enter.togglePause.toOption.getD cx.frames.enter).depth =
        cx.frames.depth + 1 := by
      simp only [FrameStack.togglePause]
      split
      · rfl
      · split <;> rfl
    generalize cx.frames.enter.togglePause.toOption.getD cx.frames.enter = frames at entered
    have nested : 2 ≤ frames.depth := by have := logged.entered; omega
    generalize (if cx.frames.enter.rewinding = true then none else some reason) = condition
    -- No suspension was under way, so the primitive's own parting is the first.
    have fresh : Logged [] frames condition := Logged.start (by omega)
    obtain ⟨departure, changed, left, after, shallower⟩ := fresh.leave nested
    have deeper : cx.frames.depth ≤ changed.depth := by omega
    simp only [left, parting]
    generalize ([] ++ if frames.pausing = true then [(⟨frames, condition⟩ : Parting ρ)] else []) =
      extended at after ⊢
    split
    · exact ⟨after, deeper⟩
    · exact ⟨after, deeper⟩
    · split <;> exact ⟨after, deeper⟩

end Context

theorem Op.perform_logs (execute : Context ρ ε → Ending Unit × Context ρ ε) {op : Op ρ ε}
    (onContext : op.OnContext) {cx : Context ρ ε} {log : List (Parting ρ)}
    (logged : Logged log cx.frames cx.reason) :
    Logged (log ++ op.partings cx) (op.perform execute cx).2.frames
        (op.perform execute cx).2.reason ∧
      cx.frames.depth ≤ (op.perform execute cx).2.frames.depth := by
  cases op with
  | pause reason => exact Context.pause_logs reason cx log logged
  | suspend suspension marker locals =>
    exact Context.suspend_logs suspension marker (.value locals) cx log logged
  | exit value =>
    simp only [partings, List.append_nil]
    exact ⟨logged.exit _, Nat.le_refl _⟩
  | errorExit error =>
    simp only [partings, List.append_nil]
    exact ⟨logged.exit _, Nat.le_refl _⟩
  | frameStep | recoverDepth => exact onContext.elim
  | emit | look | object | become | now | restore | checkpoint | stackDepth | release | cancel
  | isReady | inspect | run | spawn | live =>
    simp only [partings, List.append_nil]
    exact ⟨logged, Nat.le_refl _⟩

namespace Script

theorem exec_logs {execute : Context ρ ε → Ending Unit × Context ρ ε}
    {inner : Context ρ ε → List (Parting ρ)} (logs : Context.Logs inner execute)
    (script : Script ρ ε) (onContext : script.OnContext) :
    Context.Logs (script.partings execute inner) (script.exec execute) := by
  -- Each node hands the log that it extended to what comes after it.
  induction script with
  | done ending =>
    intro cx log logged
    rw [partings, List.append_nil]
    exact ⟨logged, Nat.le_refl _⟩
  | act op next ih =>
    intro cx log logged
    obtain ⟨onto, later⟩ := onContext
    obtain ⟨performed, deeper⟩ := Op.perform_logs execute onto logged
    obtain ⟨after, deepest⟩ := ih _ (later _) _ _ performed
    rw [partings, ← List.append_assoc]
    exact ⟨after, Nat.le_trans deeper deepest⟩
  | call body next bodyIh ih =>
    intro cx log logged
    obtain ⟨onto, later⟩ := onContext
    obtain ⟨called, deeper⟩ := Context.call_logs (bodyIh () onto) cx log logged
    obtain ⟨after, deepest⟩ := ih _ (later _) _ _ called
    rw [partings, ← List.append_assoc]
    exact ⟨after, Nat.le_trans deeper deepest⟩
  | invoke object next ih =>
    intro cx log logged
    obtain ⟨called, deeper⟩ :=
      Context.call_logs (Context.invokeFrame_logs logs object) cx log logged
    obtain ⟨after, deepest⟩ := ih _ (onContext _) _ _ called
    rw [partings, ← List.append_assoc]
    exact ⟨after, Nat.le_trans deeper deepest⟩

theorem execute_logs {enter : ρ → Script ρ ε} (onContext : ∀ r, (enter r).OnContext)
    (depth : Nat) : Context.Logs (executePartings enter depth) (execute enter depth) := by
  induction depth with
  | zero =>
    intro cx log logged
    rw [executePartings, List.append_nil]
    exact ⟨logged, Nat.le_refl _⟩
  | succ depth ih =>
    intro cx log logged
    exact exec_logs ih (enter cx.object) (onContext cx.object) cx log logged

end Script

namespace World

def ReturnsSuspending (w : World ρ ε) (enter : ρ → Script ρ ε) (depth task : Nat)
    (frame : Nat) : Prop :=
  ∃ cx, w.entry task = some cx ∧
    (∃ value, (Script.execute enter depth cx).1 = .returned value) ∧
    (Script.execute enter depth cx).2.frames.pausing = true ∧
    (Script.execute enter depth cx).2.frames.depth = frame

theorem runTask_suspended {w : World ρ ε} (sound : w.Sound) (task : Nat) {enter : ρ → Script ρ ε}
    (onContext : ∀ r, (enter r).OnContext) (depth : Nat)
    (suspended : (w.runTask (Script.execute enter depth) task).1 = .suspended) :
    ∃ t, (w.runTask (Script.execute enter depth) task).2.tasks[task]? = some t ∧
      ended t.reason = none ∧ t.reason = Parting.waitedFor (w.partings enter depth task) ∧
      t.frames.slotAt = Parting.lastHeld (w.partings enter depth task) := by
  have becomes := (runTask_settles (Script.execute_respects enter depth) sound task).1
  cases entered : w.entry task with
  | none => exact absurd suspended (runTask_refused entered _)
  | some cx =>
    obtain ⟨t, found, -⟩ := Option.bind_eq_some_iff.mp entered
    obtain ⟨t', later, -⟩ := becomes.at_task found
    obtain ⟨logged, -⟩ := Script.execute_logs onContext depth cx []
      (Logged.start (Nat.le_of_eq (entry_depth entered).symm))
    rw [runTask_entered entered] at suspended later ⊢
    obtain ⟨rest, kept, settled⟩ := Settlement.answer_suspended_iff.mp suspended
    obtain ⟨-, wound, pausing, unended, rfl, rfl⟩ := Settlement.ofEnding_suspended_iff.mp settled
    refine ⟨t', later, ?_⟩
    simp only [settled, updateTask, List.getElem?_modify, ↓reduceIte, Option.map_eq_map,
      Option.map_eq_some_iff] at later
    obtain ⟨flown, -, rfl⟩ := later
    simp only [partings, entered, Context.parting, pausing, ↓reduceIte, Task.settle]
    refine ⟨unended, logged.waits_after unended, funext fun index => ?_⟩
    exact logged.held_after index (by omega)

section

variable {w : World ρ ε} {enter : ρ → Script ρ ε} {depth task frame : Nat}

theorem ReturnsSuspending.unreported (returned : w.ReturnsSuspending enter depth task 1)
    (error : Error) : (w.runTask (Script.execute enter depth) task).1 ≠ .failed error := by
  obtain ⟨cx, entered, ⟨value, ending⟩, pausing, entry⟩ := returned
  simp only [runTask_entered entered, ending, Settlement.ofEnding,
    Settlement.ofFrames_pausing entry pausing]
  cases ended (Script.execute enter depth cx).2.reason <;> simp [Settlement.answer]

theorem ReturnsSuspending.reported (returned : w.ReturnsSuspending enter depth task frame)
    (away : frame ≠ 1) :
    ∃ error, (w.runTask (Script.execute enter depth) task).1 = .failed error ∧
      error.kind = .protocolViolation := by
  obtain ⟨cx, entered, ⟨value, ending⟩, pausing, wound⟩ := returned
  simp only [runTask_entered entered, ending, Settlement.ofEnding,
    Settlement.ofFrames_away (wound ▸ away)]
  exact ⟨_, rfl, rfl⟩

end

/-- The exact condition under which a run keeps its promise about suspended tasks, for every routine
that works through its context, however it treats the answers that it gets, in every world that any
history of calls can bring about. The promise is that a task is answered as suspended only when it
waits for something and can be entered again, and that an entry routine that returns in spite of a
suspension is reported. -/
theorem resumable_promise_kept_iff (w : World ρ ε) (calls : List (TaskCall ρ ε)) (task : Nat)
    (enter : ρ → Script ρ ε) (onContext : ∀ r, (enter r).OnContext) (depth : Nat) :
    let past := ({ w with tasks := [] }.answerAll calls).2
    let ran := past.runTask (Script.execute enter depth) task
    ((ran.1 = .suspended → ∃ t, ran.2.tasks[task]? = some t ∧ t.Resumable) ∧
      ∀ frame, past.ReturnsSuspending enter depth task frame →
        ∃ error, ran.1 = .failed error ∧ error.kind = .protocolViolation) ↔
    ((ran.1 = .suspended →
        (Parting.waitedFor (past.partings enter depth task)).isSome ∧
        Stacked (Parting.lastHeld (past.partings enter depth task))) ∧
      ¬ past.ReturnsSuspending enter depth task 1) := by
  intro past ran
  have sound : past.Sound := (history_idle w calls).sound
  constructor
  · rintro ⟨kept, reported⟩
    constructor
    · intro suspended
      obtain ⟨t, found, resumable⟩ := kept suspended
      obtain ⟨t', same, -, waits, held⟩ := runTask_suspended sound task onContext depth suspended
      obtain rfl : t = t' := Option.some.inj (found.symm.trans same)
      obtain ⟨reason, attached, -⟩ := resumable.waits
      rw [← waits, ← held, attached]
      exact ⟨rfl, resumable.stacked⟩
    · intro returned
      obtain ⟨error, failed, -⟩ := reported 1 returned
      exact returned.unreported error failed
  · rintro ⟨left, unreturned⟩
    constructor
    · intro suspended
      obtain ⟨waiting, stacked⟩ := left suspended
      obtain ⟨t, found, unended, waits, held⟩ :=
        runTask_suspended sound task onContext depth suspended
      rw [← waits] at waiting
      rw [← held] at stacked
      obtain ⟨reason, attached⟩ := Option.isSome_iff_exists.mp waiting
      exact ⟨t, found, ⟨reason, attached, ended_eq_none_iff.mp unended reason attached⟩, stacked⟩
    · intro frame returned
      have away : frame ≠ 1 := by
        rintro rfl
        exact unreturned returned
      exact returned.reported away

end World

namespace Script

def passesOver : Script ρ ε := .act (.pause .yield) fun _ => .done (.returned .unit)

def handsOn : Script ρ ε :=
  .act (.pause .yield) fun
    | .returned (.paused suspension) =>
      .act (.suspend suspension 1 .unit) fun reply => .done reply.leave
    | _ => .done (.returned .unit)

theorem handsOn_onContext : (handsOn : Script ρ ε).OnContext := by
  refine ⟨trivial, ?_⟩
  rintro ((_ | suspension) | unwind | payload)
  · exact trivial
  · exact ⟨trivial, fun _ => trivial⟩
  · exact trivial
  · exact trivial

end Script

theorem handed_on_pause_is_resumable :
    let past := (({ scheduler := default } : World Unit Unit).answerAll [.create () 0]).2
    let ran := past.runTask (Script.execute (fun _ => Script.handsOn) 1) 0
    (∀ _ : Unit, (Script.handsOn : Script Unit Unit).OnContext) ∧ ran.1 = .suspended ∧
      ∃ t, ran.2.tasks[0]? = some t ∧ t.Resumable := by
  have onContext : ∀ _ : Unit, (Script.handsOn : Script Unit Unit).OnContext :=
    fun _ => Script.handsOn_onContext
  refine ⟨onContext, rfl, ?_⟩
  refine (World.resumable_promise_kept_iff { scheduler := default } [.create () 0] 0 _ onContext
    1).mpr ⟨fun _ => ⟨rfl, 1, Nat.le_refl 1, ?_, rfl, ?_⟩, ?_⟩ |>.1 rfl
  · intro i entry
    obtain rfl : i = 0 := by omega
    rfl
  · intro i deeper
    obtain ⟨j, rfl⟩ : ∃ j, i = j + 2 := ⟨i - 2, by omega⟩
    rfl
  · rintro ⟨cx, entered, ⟨value, returned⟩, -⟩
    obtain rfl := Option.some.inj entered
    cases returned

/-- The entry routine yields, passes over the answer and returns: its task is answered as suspended
with nothing captured for the entry frame, and no error tells of it. -/
theorem ignored_pause_is_not_reported :
    let past := (({ scheduler := default } : World Unit Unit).answerAll [.create () 0]).2
    let ran := past.runTask (Script.execute (fun _ => Script.passesOver) 1) 0
    past.ReturnsSuspending (fun _ => Script.passesOver) 1 0 1 ∧ ran.1 = .suspended ∧
      ran.2.tasks[0]?.map (·.frames.slots) = some [none, some .pause] ∧
      ∀ t, ran.2.tasks[0]? = some t → ¬ t.Resumable := by
  refine ⟨⟨_, rfl, ⟨_, rfl⟩, rfl, rfl⟩, rfl, rfl, ?_⟩
  intro t found resumable
  obtain rfl := Option.some.inj found
  obtain ⟨k, entry, captured, -⟩ := resumable.stacked
  have none := captured 0 entry
  cases none

end ResumableTasks
