import ResumableTasks.Proofs.TaskLifecycle
/-!
What a run reports agrees with what its task records, in every world in which a run can be asked
for. The ending of the entry routine decides first, then the frame stack that it leaves, and the
wait reason last.
-/
namespace ResumableTasks

variable {ρ ε α : Type}

namespace World

/-- The worlds in which a call can be made: between two calls of the owner, when an entry routine
starts, and after each operation of routine code, whatever happens besides the tasks. -/
inductive Arises : World ρ ε → Prop where
  | empty {w : World ρ ε} (untasked : w.tasks = []) : Arises w
  | besides {w w' : World ρ ε} (before : Arises w) (same : w'.tasks = w.tasks) : Arises w'
  | answered {w : World ρ ε} (before : Arises w) (call : TaskCall ρ ε) : Arises (w.answer call).2
  | entered {w : World ρ ε} {task : Nat} {cx : Context ρ ε} (before : Arises w)
      (entry : w.entry task = some cx) : Arises cx.world
  | performed {cx : Context ρ ε} (before : Arises cx.world) (enter : ρ → Script ρ ε) (depth : Nat)
      (op : Op ρ ε) : Arises (op.perform (Script.execute enter depth) cx).2.world

theorem addTask_sound {w : World ρ ε} (sound : w.Sound) (entry : ρ) (classifier : Nat) :
    (w.addTask entry classifier).Sound := by
  intro i t found
  rcases addTask_cases found with old | rfl
  · exact sound i t old
  · exact .inl (Task.created_settled _ entry classifier)

theorem answer_sound {w : World ρ ε} (sound : w.Sound) (call : TaskCall ρ ε) :
    (w.answer call).2.Sound := by
  cases call with
  | create entry classifier => exact addTask_sound sound entry classifier
  | run task enter depth =>
    exact (runTask_settles (Script.execute_respects enter depth) sound task).1.sound
  | cancel task reason => exact (cancel_becomes sound task reason).sound
  | ask task => exact (isReady_becomes sound task).sound

theorem entry_sound {w : World ρ ε} (sound : w.Sound) {task : Nat} {cx : Context ρ ε}
    (entered : w.entry task = some cx) : cx.world.Sound := by
  obtain ⟨t, found, admitted⟩ := Option.bind_eq_some_iff.mp entered
  rcases (sound task t found).admission_cases with ⟨-, error, refused⟩ | ⟨-, error, refused, -⟩ |
    ⟨-, reason, cancelled⟩ | ⟨-, unfinished, frames, admission⟩
  · simp [refused] at admitted
  · simp [refused] at admitted
  · simp [cancelled] at admitted
  · simp only [admission, Option.some.injEq] at admitted
    rw [← admitted]
    exact sound.start found unfinished

theorem Arises.sound {w : World ρ ε} (arises : w.Arises) : w.Sound := by
  induction arises with
  | empty untasked =>
    intro i t found
    simp [untasked] at found
  | besides _ same sound => exact (Becomes.of_tasks_eq sound same).sound
  | answered _ call sound => exact answer_sound sound call
  | entered _ entry sound => exact entry_sound sound entry
  | performed _ enter depth op sound =>
    exact (op.perform_respects (Script.execute_respects enter depth) _ sound).sound

end World

def Ending.ComesBack : Ending α → Prop
  | .returned _ | .unwound .pause => True
  | .unwound _ | .panicked _ => False

/-- What does not fit between an entry routine that comes back and the frame stack that it leaves,
with the text of the report. -/
inductive Mismatch : Ending α → FrameStack ρ → String → Prop where
  | wound {ending : Ending α} {frames : FrameStack ρ} (back : ending.ComesBack)
      (away : frames.depth ≠ 1) :
      Mismatch ending frames
        ("entry routine returned with " ++ toString frames.depth ++ " frames wound")
  | live {frames : FrameStack ρ} (entry : frames.depth = 1) (live : frames.pausing = false) :
      Mismatch (.unwound .pause) frames "entry unwound with Pause but the fiber is not pausing"
  | retained {frames : FrameStack ρ} (value : α) (entry : frames.depth = 1)
      (live : frames.pausing = false) (held : 0 < frames.retained) :
      Mismatch (.returned value) frames ("rewind did not reach the suspended frames (" ++
        toString frames.retained ++ " still retained)")

/-- The endings that conclude a task in good order whatever frame stack they leave. -/
inductive Ending.Concludes : Ending α → Option WaitReason → TaskOutcome → Prop where
  | panicked (payload : Value) (reason : Option WaitReason) :
      Concludes (.panicked payload) reason (.panicked (.ofPayload payload))
  | cancelled (request : CancelReason) (reason : Option WaitReason) :
      Concludes (.unwound (.cancelled request)) reason (.cancelled request)
  | failed {error : Error} (mild : error.isFatal = false) (reason : Option WaitReason) :
      Concludes (.unwound (.failed error)) reason (.err error)
  | exit (reason : Option WaitReason) :
      Concludes (.unwound .exit) reason ((ended reason).getD (.ok .ok))

namespace Settlement

variable {id : TaskId} {ending : Ending α} {frames : FrameStack ρ} {reason : Option WaitReason}

theorem ofEnding_back (id : TaskId) (frames : FrameStack ρ) (reason : Option WaitReason)
    (back : ending.ComesBack) :
    ∃ unwound, ofEnding id ending frames reason = ofFrames id unwound frames reason ∧
      (unwound = true ↔ ending = .unwound .pause) := by
  rcases ending with value | unwind | payload
  · exact ⟨false, rfl, by simp⟩
  · cases unwind with
    | pause => exact ⟨true, rfl, by simp⟩
    | exit | cancelled | failed => exact back.elim
  · exact back.elim

theorem ofEnding_concludes {outcome : TaskOutcome} (concludes : ending.Concludes reason outcome) :
    ofEnding id ending frames reason = .finished outcome := by
  cases concludes with
  | panicked => rfl
  | cancelled => rfl
  | failed mild => simp [ofEnding, mild]
  | exit =>
    rcases reason with _ | r
    · rfl
    · cases r <;> rfl

theorem ofEnding_fatal {error : Error} (fatal : error.isFatal = true) :
    ofEnding (α := α) id (.unwound (.failed error)) frames reason = .failed (error.inTask id) := by
  simp [ofEnding, fatal]

theorem ofEnding_mismatch {detail : String} (mismatch : Mismatch ending frames detail) :
    ofEnding id ending frames reason = violation id detail := by
  cases mismatch with
  | wound back away =>
    obtain ⟨unwound, settled, -⟩ := ofEnding_back id frames reason back
    rw [settled, ofFrames_away away]
  | live entry live => simp [ofEnding, ofFrames, FrameStack.finish, entry, live]
  | retained value entry live held =>
    simp [ofEnding, ofFrames, FrameStack.finish, entry, live, held]

theorem ofEnding_matched (back : ending.ComesBack)
    (matched : ∀ detail, ¬ Mismatch ending frames detail) :
    ofEnding id ending frames reason =
      match ended reason with
      | some outcome => .finished outcome
      | none => if frames.pausing then .suspended { slots := frames.slots } reason
        else .finished (.ok .ok) := by
  have entry : frames.depth = 1 := Decidable.of_not_not fun away => matched _ (.wound back away)
  obtain ⟨unwound, settled, handed⟩ := ofEnding_back id frames reason back
  rw [settled]
  cases pausing : frames.pausing with
  | true =>
    refine (ofFrames_pausing entry pausing).trans ?_
    cases ended reason <;> rfl
  | false =>
    have returned : unwound = false := by
      cases unwound with
      | false => rfl
      | true =>
        obtain rfl := handed.mp rfl
        exact absurd (.live entry pausing) (matched _)
    have released : ¬ frames.retained > 0 := by
      intro held
      rcases ending with value | unwind | payload
      · exact matched _ (.retained value entry pausing held)
      · cases unwind with
        | pause => exact matched _ (.live entry pausing)
        | exit | cancelled | failed => exact back
      · exact back
    rcases reason with _ | r
    · simp [ofFrames, FrameStack.finish, entry, pausing, returned, released, ended]
    · cases r <;> simp [ofFrames, FrameStack.finish, entry, pausing, returned, released, ended,
        WaitReason.outcome?]

theorem ofEnding_terminal {outcome : TaskOutcome} (terminal : reason = some (.done outcome))
    (orderly : ending = .unwound .exit ∨
      ending.ComesBack ∧ ∀ detail, ¬ Mismatch ending frames detail) :
    ofEnding id ending frames reason = .finished outcome := by
  have held : ended reason = some outcome := by
    rw [terminal]
    rfl
  rcases orderly with rfl | ⟨back, matched⟩
  · have exits := Ending.Concludes.exit (α := α) reason
    rw [held] at exits
    exact ofEnding_concludes exits
  · rw [ofEnding_matched back matched, held]

theorem ending_cases (ending : Ending α) (reason : Option WaitReason) :
    ending.ComesBack ∨ (∃ error, ending = .unwound (.failed error) ∧ error.isFatal = true) ∨
      ∃ outcome, ending.Concludes reason outcome := by
  rcases ending with value | unwind | payload
  · exact .inl trivial
  · cases unwind with
    | pause => exact .inl trivial
    | exit => exact .inr (.inr ⟨_, .exit reason⟩)
    | cancelled request => exact .inr (.inr ⟨_, .cancelled request reason⟩)
    | failed error =>
      cases fatal : error.isFatal with
      | true => exact .inr (.inl ⟨error, rfl, fatal⟩)
      | false => exact .inr (.inr ⟨_, .failed fatal reason⟩)
  · exact .inr (.inr ⟨_, .panicked payload reason⟩)

theorem ofEnding_failed_iff {error : Error} :
    ofEnding id ending frames reason = .failed error ↔
      (∃ raised, ending = .unwound (.failed raised) ∧ raised.isFatal = true ∧
        error = raised.inTask id) ∨
      ∃ detail, Mismatch ending frames detail ∧ error = (Error.protocol detail).withTask id := by
  constructor
  · intro failed
    rcases ending_cases ending reason with back | ⟨raised, rfl, fatal⟩ | ⟨outcome, concludes⟩
    · by_cases matched : ∀ detail, ¬ Mismatch ending frames detail
      · rw [ofEnding_matched back matched] at failed
        cases ends : ended reason with
        | some outcome => simp [ends] at failed
        | none =>
          simp only [ends] at failed
          split at failed <;> simp at failed
      · obtain ⟨detail, mismatch⟩ := Classical.not_forall_not.mp matched
        rw [ofEnding_mismatch mismatch] at failed
        exact .inr ⟨detail, mismatch, (Settlement.failed.inj failed).symm⟩
    · rw [ofEnding_fatal fatal] at failed
      exact .inl ⟨raised, rfl, fatal, (Settlement.failed.inj failed).symm⟩
    · simp [ofEnding_concludes concludes] at failed
  · rintro (⟨raised, rfl, fatal, rfl⟩ | ⟨detail, mismatch, rfl⟩)
    · exact ofEnding_fatal fatal
    · exact ofEnding_mismatch mismatch

theorem failed_is_protocol {error : Error}
    (failed : ofEnding id ending frames reason = .failed error) :
    error.kind.category = .protocol ∧ error.context.task.isSome := by
  rcases ofEnding_failed_iff.mp failed with ⟨raised, -, fatal, rfl⟩ | ⟨detail, -, rfl⟩
  · have category : raised.kind.category = .protocol := by simpa [Error.isFatal] using fatal
    unfold Error.inTask
    split
    · next named => exact ⟨category, named⟩
    · exact ⟨category, rfl⟩
  · exact ⟨rfl, rfl⟩

end Settlement

def RunAnswer.surfacesFatal : RunAnswer → Bool
  | .failed error => error.isFatal
  | _ => false

namespace Task

def Records (t : Task ρ) : RunAnswer → Prop
  | .suspended => t.state = .suspended
  | .done => t.state = .done ∧ t.exit.isSome
  | .failed error => t.state = .done ∧ t.exit = some (.err error)
  | .misused _ => False

theorem Records.suspended_iff {t : Task ρ} {answer : RunAnswer} (records : t.Records answer) :
    answer = .suspended ↔ t.state = .suspended := by
  cases answer with
  | suspended => exact iff_of_true rfl records
  | done => simp [records.1]
  | failed => simp [records.1]
  | misused => exact records.elim

theorem Records.done_of_not_suspended {t : Task ρ} {answer : RunAnswer}
    (records : t.Records answer) (other : t.state ≠ .suspended) : t.state = .done := by
  cases answer with
  | suspended => exact absurd records other
  | done => exact records.1
  | failed => exact records.1
  | misused => exact records.elim

theorem settle_records (t : Task ρ) {settlement : Settlement ρ}
    (settles : ∀ misuse, settlement ≠ .misused misuse) :
    (t.settle settlement).2.Records settlement.answer := by
  cases settlement with
  | finished outcome => exact ⟨rfl, rfl⟩
  | failed error => exact ⟨rfl, rfl⟩
  | suspended frames reason => rfl
  | misused misuse => exact absurd rfl (settles misuse)

end Task

namespace World

def ending (w : World ρ ε) (enter : ρ → Script ρ ε) (depth task : Nat) :
    Option (Ending Unit × Context ρ ε) := (w.entry task).map (Script.execute enter depth)

section

variable {w : World ρ ε} {task : Nat} {t : Task ρ} {enter : ρ → Script ρ ε} {depth : Nat}

theorem runTask_settled (sound : w.Sound) {ended : Ending Unit} {last : Context ρ ε}
    (ends : w.ending enter depth task = some (ended, last)) (found : w.tasks[task]? = some t) :
    let ran := w.runTask (Script.execute enter depth) task
    let settlement := Settlement.ofEnding t.id ended last.frames last.reason
    ran.1 = settlement.answer ∧
      ∃ flown : Task ρ, ran.2.tasks[task]? = some (flown.settle settlement).2 := by
  intro ran settlement
  obtain ⟨cx, entered, executed⟩ := Option.map_eq_some_iff.mp ends
  have id : cx.id = t.id := by
    simp only [entry, found, Option.bind_some] at entered
    split at entered
    · rw [← Option.some.inj entered]
    · simp at entered
  obtain ⟨t', later, -⟩ :=
    (runTask_settles (Script.execute_respects enter depth) sound task).1.at_task found
  have settled : ran = _ := runTask_entered entered (Script.execute enter depth)
  rw [executed, id] at settled
  refine ⟨congrArg Prod.fst settled, ?_⟩
  change ran.2.tasks[task]? = some t' at later
  rw [settled] at later ⊢
  simp only [updateTask, List.getElem?_modify, ↓reduceIte, Option.map_eq_map,
    Option.map_eq_some_iff] at later ⊢
  obtain ⟨flown, there, -⟩ := later
  exact ⟨_, flown, there, rfl⟩

theorem runTask_unentered (enter : ρ → Script ρ ε) (depth : Nat) (sound : w.Sound)
    (found : w.tasks[task]? = some t)
    (idle : t.state = .new ∨ t.state = .suspended) (unentered : w.entry task = none) :
    (w.runTask (Script.execute enter depth) task).1 = .done ∧
      ∃ t', (w.runTask (Script.execute enter depth) task).2.tasks[task]? = some t' ∧
        t'.Records .done := by
  rcases (sound task t found).admission_cases with ⟨running, -⟩ | ⟨done, -⟩ |
    ⟨-, reason, cancelled⟩ | ⟨-, -, frames, admission⟩
  · simp [running] at idle
  · simp [done] at idle
  · simp only [runTask, found, cancelled, updateTask, List.getElem?_modify, ↓reduceIte]
    exact ⟨trivial, _, rfl, rfl, rfl⟩
  · simp [entry, found, admission] at unentered

theorem runTask_records (enter : ρ → Script ρ ε) (depth : Nat) (sound : w.Sound)
    (found : w.tasks[task]? = some t) (idle : t.state = .new ∨ t.state = .suspended) :
    let ran := w.runTask (Script.execute enter depth) task
    (∃ t', ran.2.tasks[task]? = some t' ∧ t'.Records ran.1) ∧
      ∀ error, ran.1 = .failed error → error.isFatal = true := by
  intro ran
  cases ends : w.ending enter depth task with
  | none =>
    have unentered : w.entry task = none := Option.map_eq_none_iff.mp ends
    obtain ⟨done, recorded⟩ := runTask_unentered enter depth sound found idle unentered
    have answered : ran.1 = .done := done
    rw [answered]
    exact ⟨recorded, nofun⟩
  | some left =>
    obtain ⟨ending, last⟩ := left
    obtain ⟨answered, flown, later⟩ := runTask_settled sound ends found
    rw [show ran.1 = _ from answered]
    refine ⟨⟨_, later, flown.settle_records Settlement.ofEnding_ne_misused⟩, ?_⟩
    intro error failed
    have settled := Settlement.answer_failed_iff.mp failed
    simp [Error.isFatal, (Settlement.failed_is_protocol settled).1]

end

/-- A task that is neither done nor running is run, in any world in which this can happen, with any
code for the routine objects. The run is answered as suspended exactly when this is the state
afterwards, and otherwise the task is done. It fails exactly on a fatal error that the entry routine
raised and on a mismatch; the error is one of the protocol, names a task, and is the outcome that
the task records. A panic, a cancellation, a milder error and an exit conclude the task. A terminal
wait reason at the end is the outcome of a routine that exits or comes back in order, even during a
suspension. -/
theorem run_report_agrees_with_record {w : World ρ ε} (arises : w.Arises) {task : Nat} {t : Task ρ}
    (found : w.tasks[task]? = some t) (open_task : t.state ≠ .done) (at_rest : t.state ≠ .running)
    (enter : ρ → Script ρ ε) (depth : Nat) :
    let ran := w.runTask (Script.execute enter depth) task
    ∃ t', ran.2.tasks[task]? = some t' ∧
      (ran.1 = .suspended ↔ t'.state = .suspended) ∧
      (t'.state ≠ .suspended → t'.state = .done) ∧
      (∀ error, ran.1 = .failed error ↔ ∃ ending last,
        w.ending enter depth task = some (ending, last) ∧
        ((∃ raised, ending = .unwound (.failed raised) ∧ raised.isFatal = true ∧
            error = raised.inTask t.id) ∨
          ∃ detail, Mismatch ending last.frames detail ∧
            error = (Error.protocol detail).withTask t.id)) ∧
      (∀ error, ran.1 = .failed error → error.kind.category = .protocol ∧
        error.context.task.isSome ∧ t'.exit = some (.err error)) ∧
      ∀ ending last, w.ending enter depth task = some (ending, last) →
        (∀ outcome, ending.Concludes last.reason outcome →
          ran.1 = .done ∧ t'.exit = some outcome) ∧
        ∀ outcome, last.reason = some (.done outcome) →
          ending = .unwound .exit ∨
            ending.ComesBack ∧ (∀ detail, ¬ Mismatch ending last.frames detail) →
          ran.1 = .done ∧ t'.exit = some outcome := by
  intro ran
  have idle : t.state = .new ∨ t.state = .suspended := by
    cases state : t.state <;> simp [state] at open_task at_rest ⊢
  cases ends : w.ending enter depth task with
  | none =>
    have unentered : w.entry task = none := Option.map_eq_none_iff.mp ends
    obtain ⟨done, t', later, records⟩ :=
      runTask_unentered enter depth arises.sound found idle unentered
    have answered : ran.1 = .done := done
    rw [answered]
    exact ⟨t', later, records.suspended_iff, records.done_of_not_suspended, by simp, by simp,
      by simp⟩
  | some left =>
    obtain ⟨ending, last⟩ := left
    obtain ⟨answered, flown, later⟩ := runTask_settled arises.sound ends found
    have settles (misuse : Misuse) : Settlement.ofEnding t.id ending last.frames last.reason ≠
        .misused misuse := Settlement.ofEnding_ne_misused misuse
    have records := flown.settle_records settles
    rw [show ran.1 = _ from answered]
    refine ⟨_, later, records.suspended_iff, records.done_of_not_suspended, ?_, ?_, ?_⟩
    · intro error
      rw [Settlement.answer_failed_iff, Settlement.ofEnding_failed_iff]
      constructor
      · intro reported
        exact ⟨ending, last, rfl, reported⟩
      · rintro ⟨ending', last', same, reported⟩
        obtain ⟨rfl, rfl⟩ := Prod.mk.inj (Option.some.inj same)
        exact reported
    · intro error failed
      have settled := Settlement.answer_failed_iff.mp failed
      obtain ⟨category, named⟩ := Settlement.failed_is_protocol settled
      rw [settled]
      exact ⟨category, named, rfl⟩
    · intro ending' last' same
      obtain ⟨rfl, rfl⟩ := Prod.mk.inj (Option.some.inj same)
      constructor
      · intro outcome concludes
        rw [Settlement.ofEnding_concludes concludes]
        exact ⟨rfl, rfl⟩
      · intro outcome terminal orderly
        rw [Settlement.ofEnding_terminal terminal orderly]
        exact ⟨rfl, rfl⟩

end World

namespace Script

def waitsForEnd (error : Error) : Script ρ ε :=
  .act (.pause (.done (.err error))) fun
    | .returned (.paused suspension) =>
      .act (.suspend suspension 1 .unit) fun reply => .done reply.leave
    | _ => .done (.returned .unit)

end Script

theorem terminal_wait_is_recorded :
    let w : World Unit Unit := { scheduler := default }
    let created := (w.answer (.create () 0)).2
    let enter : Unit → Script Unit Unit := fun _ => .waitsForEnd (.protocol "stuck")
    let ran := created.runTask (Script.execute enter 1) 0
    created.Arises ∧ created.tasks[0]?.map (·.state) = some .new ∧
      (∃ last, created.ending enter 1 0 = some (.unwound .pause, last) ∧
        last.frames.pausing = true ∧ ∀ detail, ¬ Mismatch (.unwound .pause : Ending Unit)
          last.frames detail) ∧
      ran.1 = .done ∧
      ∃ t, ran.2.tasks[0]? = some t ∧ t.exit = some (.err (.protocol "stuck")) := by
  intro w created enter ran
  have arises : created.Arises := .answered (.empty rfl) _
  have found : created.tasks[0]? = some { id := .ofIndex 0, entry := (), classifier := 0 } := rfl
  obtain ⟨t, later, -, -, -, -, concludes⟩ :=
    World.run_report_agrees_with_record arises found (by simp) (by simp) enter 1
  let left : FrameStack Unit :=
    .wound [] (some (.saved 1 (.value .unit))) [some .pause] freshMarker true
  have matched : ∀ detail, ¬ Mismatch (.unwound .pause : Ending Unit) left detail := by
    intro detail mismatch
    cases mismatch with
    | wound _ away => exact away rfl
    | live _ live => cases live
  obtain ⟨-, terminal⟩ := concludes _ _ rfl
  obtain ⟨done, exit⟩ := terminal _ rfl (.inr ⟨trivial, matched⟩)
  exact ⟨arises, rfl, ⟨_, rfl, rfl, matched⟩, done, t, later, exit⟩

end ResumableTasks
