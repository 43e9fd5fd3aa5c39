import ResumableTasks.Context
import ResumableTasks.Proofs.WoundStack
/-!
The two ends of a run. Which tasks are entered and in what stack, and exactly when the ending of the
entry routine, the frame stack and the wait reason that it leaves make a suspension. The stack is
never ended away from the entry frame.
-/
namespace ResumableTasks

variable {ρ ε α : Type}

def ended : Option WaitReason → Option TaskOutcome := (·.bind WaitReason.outcome?)

theorem ended_eq_none_iff {reason : Option WaitReason} :
    ended reason = none ↔ ∀ r, reason = some r → r.isTerminal = false := by
  rcases reason with _ | r
  · simp [ended]
  · cases r <;> simp [ended, WaitReason.outcome?, WaitReason.isTerminal, WaitReason.kind]

namespace Settlement

def answer : Settlement ρ → RunAnswer
  | .finished _ => .done
  | .failed error => .failed error
  | .suspended _ _ => .suspended
  | .misused misuse => .misused misuse

theorem answer_suspended_iff {settlement : Settlement ρ} :
    settlement.answer = .suspended ↔ ∃ rest kept, settlement = .suspended rest kept := by
  cases settlement <;> simp [answer]

theorem answer_failed_iff {settlement : Settlement ρ} {error : Error} :
    settlement.answer = .failed error ↔ settlement = .failed error := by
  cases settlement <;> simp [answer]

section

variable {id : TaskId} {unwound : Bool} {ending : Ending α} {frames rest : FrameStack ρ}
  {reason kept : Option WaitReason}

theorem ofFrames_away (away : frames.depth ≠ 1) :
    ofFrames id unwound frames reason = violation id ("entry routine returned with " ++
      toString frames.depth ++ " frames wound") := by
  simp [ofFrames, away]

theorem ofFrames_pausing (entry : frames.depth = 1) (pausing : frames.pausing = true) :
    ofFrames id unwound frames reason =
      match ended reason with
      | some outcome => .finished outcome
      | none => .suspended { slots := frames.slots } reason := by
  rcases reason with _ | r
  · simp [ofFrames, FrameStack.finish, entry, pausing, ended]
  · cases r <;>
      simp [ofFrames, FrameStack.finish, entry, pausing, ended, WaitReason.outcome?]

theorem ofFrames_live (id : TaskId) (unwound : Bool) (reason : Option WaitReason)
    (entry : frames.depth = 1) (live : frames.pausing = false) :
    (∃ outcome, ofFrames id unwound frames reason = .finished outcome) ∨
      ∃ detail, ofFrames id unwound frames reason = violation id detail := by
  simp only [ofFrames, FrameStack.finish, entry, live, ne_eq, not_true_eq_false, ↓reduceIte]
  split
  · exact .inr ⟨_, rfl⟩
  · split
    · exact .inr ⟨_, rfl⟩
    · split
      · exact .inl ⟨_, rfl⟩
      · exact .inl ⟨_, rfl⟩

theorem ofFrames_ne_misused (misuse : Misuse) :
    ofFrames id unwound frames reason ≠ .misused misuse := by
  by_cases entry : frames.depth = 1
  · cases pausing : frames.pausing with
    | false =>
      rcases ofFrames_live id unwound reason entry pausing with
        ⟨outcome, settled⟩ | ⟨detail, settled⟩
      · simp [settled]
      · simp [settled, violation]
    | true =>
      rw [ofFrames_pausing entry pausing]
      cases ended reason <;> simp
  · simp [ofFrames_away entry, violation]

theorem ofFrames_suspended_iff :
    ofFrames id unwound frames reason = .suspended rest kept ↔
      frames.depth = 1 ∧ frames.pausing = true ∧ ended reason = none ∧
        rest = { slots := frames.slots } ∧ kept = reason := by
  by_cases entry : frames.depth = 1
  · cases pausing : frames.pausing with
    | false =>
      rcases ofFrames_live id unwound reason entry pausing with
        ⟨outcome, settled⟩ | ⟨detail, settled⟩
      · simp [settled]
      · simp [settled, violation]
    | true =>
      rw [ofFrames_pausing entry pausing]
      cases ended reason <;> simp [entry, eq_comm]
  · simp [ofFrames_away entry, entry, violation]

theorem ofEnding_ne_misused (misuse : Misuse) :
    ofEnding id ending frames reason ≠ .misused misuse := by
  rcases ending with value | unwind | payload
  · exact ofFrames_ne_misused misuse
  · cases unwind with
    | pause => exact ofFrames_ne_misused misuse
    | exit => simp [ofEnding]
    | cancelled => simp [ofEnding]
    | failed error =>
      simp only [ofEnding]
      split <;> simp
  · simp [ofEnding]

theorem ofEnding_suspended_iff :
    ofEnding id ending frames reason = .suspended rest kept ↔
      (ending = .unwound .pause ∨ ∃ value, ending = .returned value) ∧
      frames.depth = 1 ∧ frames.pausing = true ∧ ended reason = none ∧
        rest = { slots := frames.slots } ∧ kept = reason := by
  rcases ending with value | unwind | payload
  · simp [ofEnding, ofFrames_suspended_iff]
  · cases unwind with
    | pause => simp [ofEnding, ofFrames_suspended_iff]
    | exit => simp [ofEnding]
    | cancelled => simp [ofEnding]
    | failed error =>
      simp only [ofEnding]
      split <;> simp
  · simp [ofEnding]

open FrameStack Slot in
theorem ofEnding_returned {above : List (Option (Slot ρ))} (blank : Blank above) (marker : UInt32)
    (unended : ended reason = none) (value : α) :
    ofEnding id (.returned value) (wound [] none above marker false) reason =
      .finished (.ok .ok) := by
  have nothing : (wound [] none above marker false).retained = 0 := by
    rw [retained_wound]
    exact blank_iff_countP_zero.mpr (blank_cons_iff.mpr ⟨rfl, blank⟩)
  have open_ended : ∀ outcome, reason ≠ some (.done outcome) := by
    rintro outcome rfl
    simp [ended, WaitReason.outcome?] at unended
  simp only [ofEnding, ofFrames, depth_wound, List.length_nil, Nat.zero_add, ne_eq,
    not_true_eq_false, finish_wound, nothing, Bool.not_false, Bool.false_and,
    Bool.true_and, gt_iff_lt, Nat.lt_irrefl, decide_false, Bool.false_eq_true, ↓reduceIte]

theorem ofEnding_paused (own : Option (Slot ρ)) (above : List (Option (Slot ρ))) (marker : UInt32)
    (condition : WaitReason) :
    ofEnding (α := α) id (.unwound .pause) (.wound [] own above marker true) (some condition) =
      match condition.outcome? with
      | some outcome => .finished outcome
      | none => .suspended { slots := own :: above } (some condition) :=
  ofFrames_pausing rfl rfl

end

end Settlement

namespace Task

theorem settle_answer (t : Task ρ) (settlement : Settlement ρ) :
    (t.settle settlement).1 = settlement.answer := by
  cases settlement <;> rfl

theorem admission_of_unwound {t : Task ρ} (unwound : t.frames.depth = 0)
    (startable : t.state = .suspended ∨ t.state = .new ∧ t.cancel = none) :
    t.admission = .entered (FrameStack.wound [] (t.frames.slots.headD none) t.frames.slots.tail
      (Slot.shown (t.frames.slots.headD none)) false) := by
  have begun := FrameStack.begin_unwound unwound
  rcases startable with suspended | ⟨new, uncancelled⟩
  · simp only [admission, suspended, begun]
  · simp only [admission, new, uncancelled, begun]

/-- A task can be entered as far as requests go, or it was asked to stop before its first run. -/
theorem startable_or_stopped (t : Task ρ) :
    (t.state = .new → t.cancel = none) ∨
      ∃ request, t.state = .new ∧ t.cancel = some request := by
  cases t.cancel with
  | none => exact .inl fun _ => rfl
  | some request =>
    by_cases new : t.state = .new
    · exact .inr ⟨request, new, rfl⟩
    · exact .inl fun same => absurd same new

theorem begin_of_admission {t : Task ρ} {frames : FrameStack ρ}
    (admitted : t.admission = .entered frames) : t.frames.begin = .ok frames := by
  simp only [admission] at admitted
  split at admitted <;> try simp at admitted
  split at admitted
  · next begun => rw [begun, Admission.entered.inj admitted]
  · simp at admitted

theorem depth_of_admission {t : Task ρ} {frames : FrameStack ρ}
    (admitted : t.admission = .entered frames) : frames.depth = 1 := by
  have begun := begin_of_admission admitted
  simp only [FrameStack.begin] at begun
  split at begun
  · next unwound =>
    rw [← Except.ok.inj begun]
    simp [FrameStack.enter, unwound]
  · simp at begun

theorem live_of_admission {t : Task ρ} {frames : FrameStack ρ}
    (admitted : t.admission = .entered frames) : frames.pausing = false := by
  have begun := begin_of_admission admitted
  simp only [FrameStack.begin] at begun
  split at begun
  · rw [← Except.ok.inj begun]
    rfl
  · simp at begun

end Task

namespace World

theorem updateTask_congr {w : World ρ ε} {task : Nat} {t : Task ρ}
    (found : w.tasks[task]? = some t) {change other : Task ρ → Task ρ}
    (same : change t = other t) : w.updateTask task change = w.updateTask task other := by
  have tasks : w.tasks.modify task change = w.tasks.modify task other := by
    apply List.ext_getElem?
    intro i
    simp only [List.getElem?_modify]
    by_cases here : task = i
    · subst here
      simp [found, same]
    · simp [here]
  simp only [updateTask, tasks]

theorem updateTask_updateTask (w : World ρ ε) (task : Nat) (first later : Task ρ → Task ρ) :
    (w.updateTask task first).updateTask task later = w.updateTask task (later ∘ first) := by
  simp only [updateTask, List.modify_modify_eq]

/-- The context in which the entry routine of a task starts, if a run enters it at all. -/
def entry (w : World ρ ε) (task : Nat) : Option (Context ρ ε) :=
  w.tasks[task]?.bind fun t =>
    match t.admission with
    | .entered frames => some
        { task
          id := t.id
          classifier := t.classifier
          frames
          reason := t.reason
          object := t.entry
          world := w.updateTask task ({ · with state := .running }) }
    | _ => none

theorem entry_depth {w : World ρ ε} {task : Nat} {cx : Context ρ ε}
    (entered : w.entry task = some cx) : cx.frames.depth = 1 := by
  obtain ⟨t, -, admitted⟩ := Option.bind_eq_some_iff.mp entered
  split at admitted
  · next frames admission =>
    rw [← Option.some.inj admitted]
    exact Task.depth_of_admission admission
  · simp at admitted

theorem entry_live {w : World ρ ε} {task : Nat} {cx : Context ρ ε}
    (entered : w.entry task = some cx) : cx.frames.pausing = false := by
  obtain ⟨t, -, admitted⟩ := Option.bind_eq_some_iff.mp entered
  split at admitted
  · next frames admission =>
    rw [← Option.some.inj admitted]
    exact Task.live_of_admission admission
  · simp at admitted

theorem entry_of_done {w : World ρ ε} {task : Nat} {t : Task ρ} (found : w.tasks[task]? = some t)
    (done : t.state = .done) : w.entry task = none := by
  simp only [entry, found, Option.bind_some, Task.admission, done]

theorem not_done_of_entered {w : World ρ ε} {task : Nat} {cx : Context ρ ε}
    (entered : w.entry task = some cx) {t : Task ρ} (found : w.tasks[task]? = some t) :
    t.isDone = false := by
  cases done : t.isDone with
  | false => rfl
  | true =>
    rw [entry_of_done found (by simpa [Task.isDone_eq] using done)] at entered
    cases entered

theorem runTask_of_done {w : World ρ ε} {task : Nat} {t : Task ρ} (found : w.tasks[task]? = some t)
    (done : t.state = .done) (execute : Context ρ ε → Ending α × Context ρ ε) :
    (w.runTask execute task).2 = w := by
  simp only [runTask, found, Task.admission, done]

theorem entry_of_unstarted {w : World ρ ε} {task : Nat} {t : Task ρ} {request : CancelReason}
    (found : w.tasks[task]? = some t) (new : t.state = .new) (requested : t.cancel = some request) :
    w.entry task = none := by
  simp only [entry, found, Option.bind_some, Task.admission, new, requested]

theorem runTask_of_unstarted {w : World ρ ε} {task : Nat} {t : Task ρ} {request : CancelReason}
    (found : w.tasks[task]? = some t) (new : t.state = .new) (requested : t.cancel = some request)
    (execute : Context ρ ε → Ending α × Context ρ ε) :
    w.runTask execute task = (.done, w.updateTask task (·.conclude (.cancelled request))) := by
  simp only [runTask, found, Task.admission, new, requested]

theorem runTask_entered {w : World ρ ε} {task : Nat} {cx : Context ρ ε}
    (entered : w.entry task = some cx) (execute : Context ρ ε → Ending α × Context ρ ε) :
    w.runTask execute task =
      let ran := execute cx
      let settlement := Settlement.ofEnding cx.id ran.1 ran.2.frames ran.2.reason
      (settlement.answer, ran.2.world.updateTask task fun t =>
        ({ t with entry := ran.2.object }.settle settlement).2) := by
  obtain ⟨t, found, admitted⟩ := Option.bind_eq_some_iff.mp entered
  split at admitted
  · next frames admission =>
    obtain rfl := Option.some.inj admitted
    simp only [runTask, found, admission, Task.settle_answer]
  · simp at admitted

theorem runTask_refused {w : World ρ ε} {task : Nat} (refused : w.entry task = none)
    (execute : Context ρ ε → Ending α × Context ρ ε) :
    (w.runTask execute task).1 ≠ .suspended := by
  unfold runTask
  cases found : w.tasks[task]? with
  | none => simp
  | some t =>
    simp only [entry, found, Option.bind_some] at refused
    cases admission : t.admission <;> simp [admission] at refused ⊢

end World

end ResumableTasks
