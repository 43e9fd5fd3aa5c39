import ResumableTasks.Proofs.Transparency
/-!
Cancellation of a woven routine tree. A request is observed where the task would go on: before its
first run, or at the suspension at which it was left. There the run concludes the task with the
request, and this is all that it does: the frames on the way to the sentinel take their locals back
and call again, but no step after the suspension is reached in any of them.
-/
namespace ResumableTasks

open FrameStack Slot

variable {ρ ε α : Type} {τ : ValueType}

/-- A rewound frame under a request: the step that its marker names is issued again, down to the
sentinel, and the cancellation comes back up through every frame. -/
theorem resume_cancelled (execute : Context ρ ε → Ending Unit × Context ρ ε)
    (request : CancelReason) {r : Routine ε τ} {saved : SavedFrame} {inner : List SavedFrame}
    {events : List (Event ε)} {value : Value}
    (stopped : Routine.Stopped r saved inner events value) (marked : r.WellMarked) :
    ∃ (again : Locals τ → Script ρ ε) (locals : Locals τ),
      r.resume saved.marker = some again ∧ saved.locals = locals.val ∧
      ∀ (cx : Context ρ ε) {below spare : List (Option (Slot ρ))} {marker : UInt32},
        cx.frames = wound below saved.slot
          (inner.map SavedFrame.slot ++ some Slot.pause :: spare) marker false →
        cx.cancelRequest = some request →
        ∃ above, (again locals).exec execute cx = (.unwound (.cancelled request),
          cx.reached (wound below none above freshMarker false) none []) := by
  induction stopped with
  | suspend own reason rest locals =>
    refine ⟨_, locals, by rw [Routine.resume, if_pos rfl], rfl, ?_⟩
    intro cx below spare marker frames cancelled
    have paused := Context.pause_cancelled frames cancelled (reason locals)
    refine ⟨none :: spare, ?_⟩
    rw [Script.exec, Op.perform, paused, Script.goOn, Script.exec]
  | @call _ _ own callee args absorb rest locals first deeper events value stopped ih =>
    obtain ⟨legal, -, callee_marked, -⟩ := marked
    obtain ⟨again, inside, resumes, held, ends⟩ := ih callee_marked
    refine ⟨_, locals, by rw [Routine.resume, if_pos rfl], rfl, ?_⟩
    intro cx below spare marker frames cancelled
    have entered : { cx with frames := cx.frames.enter }.frames =
        wound (below ++ [SavedFrame.slot ⟨own, locals.val⟩]) first.slot
          (deeper.map SavedFrame.slot ++ some Slot.pause :: spare) first.marker false :=
      (congrArg FrameStack.enter frames).trans (SavedFrame.enter_saved _ _ _ _ _ _)
    obtain ⟨above, ran⟩ := ends _ entered cancelled
    have callee_legal := callee_marked.legal stopped.inside
    rw [← Script.exec_enterMarked_rewound execute callee_legal held entered _ resumes] at ran
    have called : Context.call _ cx = (_, cx.reached _ none []) :=
      Context.call_unwound (by simp) ran rfl
    refine ⟨none :: above, ?_⟩
    rw [Script.exec, called, Script.goOn, Script.exec]
  | later next stopped ih =>
    obtain ⟨again, locals, resumes, held, ends⟩ := ih (next.wellMarked marked)
    refine ⟨again, locals, ?_, held, ends⟩
    rw [next.resume marked stopped.inside, resumes]

namespace World

theorem runTask_cancelled {w : World ρ ε} {task : Nat} {t : Task ρ}
    (found : w.tasks[task]? = some t) {r : Routine ε τ} (marked : r.WellMarked) {args : Locals τ}
    {events : List (Event ε)} (awaits : Awaits r args t events) {request : CancelReason}
    (cancelled : t.cancel = some request) (depth : Nat) :
    w.runTask (Script.execute (fun _ => r.woven args) (depth + 1)) task =
      (.done, w.updateTask task (·.conclude (.cancelled request))) := by
  cases awaits with
  | fresh new unset empty => exact runTask_of_unstarted found new cancelled _
  | stopped suspended waits saved inner events value parked rest =>
    obtain ⟨unwound, spare, blank, slots⟩ := parked
    let cx : Context ρ ε :=
      { task, id := t.id, classifier := t.classifier, reason := t.reason, object := t.entry
        frames := wound [] saved.slot (inner.map SavedFrame.slot ++ some Slot.pause :: spare)
          saved.marker false
        world := w.updateTask task ({ · with state := .running }) }
    have admitted : t.admission = .entered cx.frames := by
      rw [t.admission_of_unwound unwound (.inl suspended), slots]
      rfl
    have entered : w.entry task = some cx := by simp [entry, found, admitted, cx]
    have requested : cx.cancelRequest = some request := by
      simp [Context.cancelRequest, cancelOf, updateTask, found, cancelled, cx]
    -- The frames issue their steps again, down to the sentinel, where the request is heeded.
    obtain ⟨again, locals, resumes, held, ends⟩ :=
      resume_cancelled (Script.execute (fun _ => r.woven args) depth) request rest marked
    obtain ⟨above, ran⟩ := ends cx rfl requested
    have legal := marked.legal rest.inside
    rw [← Script.exec_enterMarked_rewound _ legal held rfl (r.code args) resumes] at ran
    change (r.woven args).exec _ cx = _ at ran
    rw [runTask_entered entered, Script.execute, ran]
    simp only [Ending.map, Settlement.ofEnding, Settlement.answer, Context.reached, List.map_nil,
      List.append_nil]
    refine congrArg (Prod.mk RunAnswer.done) ?_
    rw [updateTask_updateTask]
    exact updateTask_congr found rfl

end World

namespace Event

def upTo : Nat → List (Event ε) → List (Event ε)
  | 0, _ => []
  | _ + 1, [] => []
  | count + 1, .effect entry :: rest => .effect entry :: upTo (count + 1) rest
  | count + 1, .wait reason :: rest => .wait reason :: upTo count rest

theorem upTo_effects (count : Nat) (entries : List ε) (reason : WaitReason)
    (events : List (Event ε)) :
    (upTo (count + 1) (entries.map .effect ++ .wait reason :: events)).filterMap effect? =
      entries ++ (upTo count events).filterMap effect? := by
  induction entries with
  | nil => rfl
  | cons entry rest ih =>
    have first : effect? (.effect entry : Event ε) = some entry := rfl
    rw [List.map_cons, List.cons_append, upTo, List.filterMap_cons_some first, ih,
      List.cons_append]

end Event

namespace World

variable {w : World ρ ε} {task : Nat} {t : Task ρ}

theorem awaits_after {r : Routine ε τ} (marked : r.WellMarked) {args : Locals τ}
    {events : List (Event ε)} (awaits : Awaits r args t events) (uncancelled : t.cancel = none)
    (found : w.tasks[task]? = some t) (depth : Nat) {count : Nat}
    (enough : count ≤ Event.suspensions events) :
    let past := w.answerAll
      (List.replicate count (.run task (fun _ => r.woven args) (depth + 1)))
    past.1 = List.replicate count (.ran .suspended) ∧
      past.2.log =
        w.log ++ ((Event.upTo count events).filterMap Event.effect?).map (Prod.mk task) ∧
      ∃ t' later, past.2.tasks[task]? = some t' ∧ t'.cancel = none ∧ Awaits r args t' later ∧
        (count = 0 → t' = t) := by
  induction count generalizing w t events with
  | zero =>
    refine ⟨rfl, ?_, t, events, found, uncancelled, awaits, fun _ => rfl⟩
    rw [Event.upTo]
    exact (List.append_nil _).symm
  | succ count ih =>
    obtain ⟨effects, t', found', uncancelled', log, ending⟩ :=
      runTask_awaits found marked awaits uncancelled depth
    rcases ending with ⟨rfl, -⟩ | ⟨reason, later, rfl, next⟩
    · have none_left := (Event.effects_only effects).1
      omega
    · cases ends : reason.outcome? with
      | some outcome =>
        have none_left := (Event.effects_to_end ends effects later).1
        omega
      | none =>
        simp only [ends] at next
        have counted := (Event.effects_to_wait ends effects later).1
        obtain ⟨answers, log', t'', rest, found'', uncancelled'', awaits'', -⟩ :=
          ih next.2 uncancelled' found' (by omega)
        refine ⟨?_, ?_, t'', rest, found'', uncancelled'', awaits'', by simp⟩
        · exact congr (congrArg _ (congrArg _ next.1)) answers
        · rw [Event.upTo_effects, List.map_append, ← List.append_assoc, ← log]
          exact log'

theorem cancel_accepted (found : w.tasks[task]? = some t) (unfinished : t.state ≠ .done)
    (request : CancelReason) :
    (w.cancel task request).1 = true ∧ (w.cancel task request).2.tasks[task]? =
      some { t with cancel := some ((t.cancel.map (·.strengthen request)).getD request) } := by
  have accepted : t.isDone = false := by
    simp [Task.isDone_eq, unfinished]
  cases recorded : t.cancel <;>
    simp [cancel, updateTask, found, Task.requestCancel, accepted, recorded]

theorem cancels_accepted (found : w.tasks[task]? = some t) (unfinished : t.state ≠ .done)
    {recorded : CancelReason} (cancelled : t.cancel = some recorded)
    (requests : List CancelReason) :
    let past := w.answerAll (requests.map (.cancel task))
    past.1 = List.replicate requests.length (.cancelled true) ∧ past.2.log = w.log ∧
      past.2.tasks[task]? =
        some { t with cancel := some (requests.foldl CancelReason.strengthen recorded) } := by
  induction requests generalizing w t recorded with
  | nil =>
    refine ⟨rfl, rfl, ?_⟩
    rw [List.foldl_nil, ← cancelled]
    exact found
  | cons request rest ih =>
    obtain ⟨accepted, changed⟩ := cancel_accepted found unfinished request
    rw [cancelled] at changed
    obtain ⟨answers, log, strengthened⟩ := ih changed unfinished rfl
    exact ⟨congr (congrArg _ (congrArg _ accepted)) answers, log, strengthened⟩

end World

theorem Awaits.unfinished {r : Routine ε τ} {args : Locals τ} {t : Task ρ}
    {events : List (Event ε)} (awaits : Awaits r args t events) : t.state ≠ .done := by
  cases awaits with
  | fresh new => simp [new]
  | stopped suspended => simp [suspended]

theorem Awaits.requested {r : Routine ε τ} {args : Locals τ} {t : Task ρ}
    {events : List (Event ε)} (awaits : Awaits r args t events) (request : CancelReason) :
    Awaits r args { t with cancel := some request } events := by
  cases awaits with
  | fresh new unset empty => exact .fresh new unset empty
  | stopped suspended waits saved frames events value parked rest =>
    refine .stopped ?_ ?_ saved frames events value ?_ rest
    · exact suspended
    · exact waits
    · exact parked

namespace World

/-- A task over a woven routine tree is run until it has been suspended a number of times, and then
asked to stop, once or more often. All requests are accepted; the next run is answered as done, with
the strengthened request for the outcome and nothing retained, and adds no effect to those of the
direct execution up to the suspension. A task that never ran does not enter its routine at all: the
run is the same for any other code. -/
theorem cancelled_at_resume_boundary (w : World ρ ε) (entry : ρ) (classifier depth : Nat)
    {r : Routine ε τ} (marked : r.WellMarked) (locals : Locals τ) {count : Nat}
    (reached : count ≤ Event.suspensions (r.direct locals).1) (first : CancelReason)
    (later : List CancelReason) :
    let task := w.tasks.length
    let run : TaskCall ρ ε := .run task (fun _ => r.woven locals) (depth + 1)
    let before := (w.addTask entry classifier).answerAll
      (List.replicate count run ++ (first :: later).map (.cancel task))
    let past := before.2.answer run
    before.1 = List.replicate count (.ran .suspended) ++
        List.replicate (later.length + 1) (.cancelled true) ∧
      past.1 = .ran .done ∧
      (∃ t, past.2.tasks[task]? = some t ∧
        t.Concluded (.cancelled (later.foldl CancelReason.strengthen first))) ∧
      past.2.log = before.2.log ∧
      past.2.log = w.log ++
        ((Event.upTo count (r.direct locals).1).filterMap Event.effect?).map (Prod.mk task) ∧
      (count = 0 → ∀ execute : Context ρ ε → Ending Unit × Context ρ ε,
        before.2.runTask execute task = (.done, past.2)) := by
  intro task run before past
  have created : (w.addTask entry classifier).tasks[task]? = some
      { id := .ofIndex w.tasks.length, entry, classifier } := by
    simp [addTask, task]
  obtain ⟨answers, log, t, events, found, uncancelled, awaits, unrun⟩ :=
    awaits_after marked (.fresh rfl rfl rfl : Awaits r locals _ (r.direct locals).1) rfl created
      depth reached
  obtain ⟨accepted, recorded⟩ := cancel_accepted found awaits.unfinished first
  rw [uncancelled] at recorded
  obtain ⟨rest_accepted, silent, strengthened⟩ :=
    cancels_accepted recorded awaits.unfinished rfl later
  have split : before = _ := answerAll_append _ (List.replicate count run) _
  let request := later.foldl CancelReason.strengthen first
  have asked : before.2.tasks[task]? = some { t with cancel := some request } := by
    rw [split]
    exact strengthened
  have ran : before.2.answer run =
      (.ran .done, before.2.updateTask task (·.conclude (.cancelled request))) := by
    have concluded := runTask_cancelled asked marked (awaits.requested request) rfl depth
    simp only [run, answer, concluded]
  have ended : past.2.tasks[task]? =
      some (Task.conclude { t with cancel := some request } (.cancelled request)) := by
    simp only [past, ran, updateTask, List.getElem?_modify, if_pos, asked]
    rfl
  have same_log : past.2.log = before.2.log := by simp only [past, ran, updateTask]
  refine ⟨?_, congrArg Prod.fst ran, ⟨_, ended, Task.conclude_concluded _ _⟩, same_log, ?_, ?_⟩
  · rw [split, answers]
    exact congrArg _ (congr (congrArg _ (congrArg _ accepted)) rest_accepted)
  · rw [same_log, split]
    exact silent.trans log
  · rintro rfl execute
    obtain rfl := unrun rfl
    simp only [runTask, asked, Task.admission, past, ran]

end World

theorem nested_count_is_cancelled :
    let w : World Unit (List Int64) := { scheduler := default }
    let run : TaskCall Unit (List Int64) :=
      .run 0 (fun _ => Routine.countsTwice.woven ⟨.vector [1], rfl⟩) 1
    let requests : List CancelReason :=
      [⟨.user, some "stop"⟩, ⟨.timeout, none⟩, ⟨.timeout, some "late"⟩]
    let before := (w.addTask () 0).answerAll (List.replicate 4 run ++ requests.map (.cancel 0))
    let past := before.2.answer run
    Routine.countsTwice.WellMarked ∧
      4 ≤ Event.suspensions (Routine.countsTwice.direct ⟨.vector [1], rfl⟩).1 ∧
      past.1 = .ran .done ∧ past.2.log = [[1], [2]].map (Prod.mk 0) ∧
      ∃ t, past.2.tasks[0]? = some t ∧ t.Concluded (.cancelled ⟨.timeout, some "late"⟩) := by
  have marked : Routine.countsTwice.WellMarked := by decide
  have enough : 4 ≤ Event.suspensions (Routine.countsTwice.direct ⟨.vector [1], rfl⟩).1 := by
    decide
  obtain ⟨-, done, concluded, -, log, -⟩ :=
    World.cancelled_at_resume_boundary ({ scheduler := default } : World Unit (List Int64)) () 0 0
      marked ⟨.vector [1], rfl⟩ enough ⟨.user, some "stop"⟩
      [⟨.timeout, none⟩, ⟨.timeout, some "late"⟩]
  exact ⟨marked, enough, done, log, concluded⟩

end ResumableTasks
