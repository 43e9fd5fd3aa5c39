import Mathlib.Data.List.Forall2
import ResumableTasks.Script.Insistent
import ResumableTasks.Proofs.CancelledResume
import ResumableTasks.Proofs.ReachedSentinel
/-!
A suspension that is asked for again is the same suspension. Once a frame has been told that it is
paused, whatever it asks for further gets the same answer and changes nothing; so a woven routine
that insists runs as if it did not.
-/
namespace ResumableTasks

open FrameStack Slot

variable {ρ ε α : Type} {τ : ValueType}

namespace FrameStack

theorem leave_suspending {s s' : FrameStack ρ} {departure : Departure}
    (left : s.leave = .ok (departure, s')) (told : departure.pausing = true) :
    departure.hasState = (s.slotAt (s.depth - 2)).isSome ∧ s'.slots = s.slots ∧
      s'.depth = s.depth - 1 ∧ s'.pausing = true ∧ 2 ≤ s.depth := by
  simp only [leave] at left
  split at left
  · cases left
  · next deep =>
    split at left
    · next pausing =>
      obtain ⟨rfl, rfl⟩ := Prod.mk.inj (Except.ok.inj left)
      exact ⟨rfl, rfl, rfl, told, Nat.le_of_not_lt deep⟩
    · next live =>
      obtain ⟨rfl, rfl⟩ := Prod.mk.inj (Except.ok.inj left)
      exact absurd told live

theorem togglePause_enter_below {s toggled : FrameStack ρ}
    (toggles : s.enter.togglePause = .ok toggled) :
    toggled.depth = s.depth + 1 ∧ ∀ index < s.depth, toggled.slotAt index = s.slotAt index := by
  have other (slot : Option (Slot ρ)) (index : Nat) (below : index < s.depth) :
      (s.enter.setSlot s.depth slot).slotAt index = s.slotAt index := by
    rw [← s.slotAt_enter index]
    simp only [setSlot, slotAt]
    rw [List.getElem?_set_ne (by omega)]
  rw [s.togglePause_enter] at toggles
  split at toggles
  · rw [← Except.ok.inj toggles]
    exact ⟨rfl, other _⟩
  · rw [← Except.ok.inj toggles]
    exact ⟨rfl, other _⟩
  · cases toggles

theorem hasState_eq_isSome {s : FrameStack ρ} (wound : 0 < s.depth)
    (own : s.current ≠ some .pause) : s.hasState = s.current.isSome := by
  simp only [hasState, wound, decide_true, Bool.true_and]
  rcases held : s.current with _ | _ | ⟨marker, state⟩
  · rfl
  · exact absurd held own
  · rfl

end FrameStack

namespace Context

theorem pause_pausing {cx : Context ρ ε} (pausing : cx.frames.pausing = true)
    (reason : WaitReason) :
    cx.pause reason = (.returned (.paused ⟨cx.frames.hasState⟩), cx) := by
  simp only [pause, pausing, ↓reduceIte]

theorem pause_live_told {cx cx' : Context ρ ε} {reason : WaitReason} {told : Suspension}
    (live : cx.frames.pausing = false)
    (paused : cx.pause reason = (.returned (.paused told), cx')) :
    ∃ toggled departure, cx.frames.enter.togglePause = .ok toggled ∧
      toggled.leave = .ok (departure, cx'.frames) ∧ departure.pausing = true ∧
      told = ⟨departure.hasState⟩ := by
  simp only [pause, live, Bool.false_eq_true, ↓reduceIte] at paused
  cases toggles : cx.frames.enter.togglePause with
  | error e =>
    simp only [toggles] at paused
    split at paused <;> cases paused
  | ok toggled =>
    simp only [toggles, Except.toOption, Option.getD_some] at paused
    split at paused
    · cases paused
    · next departure frames left =>
      split at paused
      · cases paused
      · cases paused
      · split at paused
        · next pausing =>
          obtain ⟨same, rfl⟩ := Prod.mk.inj paused
          have same := Called.paused.inj (Ending.returned.inj same)
          exact ⟨toggled, departure, rfl, left, pausing, same.symm⟩
        · cases paused

/-- A frame that is told of a suspension is told what it would be told again. -/
theorem told_of_pause {cx cx' : Context ρ ε} {reason : WaitReason} {told : Suspension}
    (own : cx.frames.current ≠ some .pause)
    (paused : cx.pause reason = (.returned (.paused told), cx')) :
    cx'.frames.pausing = true ∧ told = ⟨cx'.frames.hasState⟩ := by
  cases pausing : cx.frames.pausing with
  | true =>
    rw [pause_pausing pausing] at paused
    obtain ⟨same, rfl⟩ := Prod.mk.inj paused
    exact ⟨pausing, (Called.paused.inj (Ending.returned.inj same)).symm⟩
  | false =>
    obtain ⟨toggled, departure, toggles, left, suspending, rfl⟩ := pause_live_told pausing paused
    obtain ⟨answered, slots, depth, still, deep⟩ := leave_suspending left suspending
    obtain ⟨entered, below⟩ := togglePause_enter_below toggles
    have kept := below (cx.frames.depth - 1) (by omega)
    have same : cx'.frames.current = cx.frames.current := by
      simp only [current, slotAt, slots, depth, entered]
      exact kept
    refine ⟨still, congrArg Suspension.mk ?_⟩
    rw [hasState_eq_isSome (by omega) (same ▸ own), same, answered, entered, current, ← kept]
    rfl

def pauses (cx : Context ρ ε) : List WaitReason → List (Ending (Called Unit)) × Context ρ ε
  | [] => ([], cx)
  | reason :: more =>
    let first := cx.pause reason
    let later := first.2.pauses more
    (first.1 :: later.1, later.2)

theorem pauses_pausing {cx : Context ρ ε} (pausing : cx.frames.pausing = true)
    (reasons : List WaitReason) :
    cx.pauses reasons =
      (List.replicate reasons.length (.returned (.paused ⟨cx.frames.hasState⟩)), cx) := by
  induction reasons with
  | nil => rfl
  | cons reason more ih => simp only [pauses, pause_pausing pausing, ih, List.length_cons,
      List.replicate_succ]

end Context

section

variable {execute execute' : Context ρ ε → Ending Unit × Context ρ ε}

theorem Script.exec_pauseAgain {cx : Context ρ ε} (pausing : cx.frames.pausing = true)
    (next : Suspension → Script ρ ε) (again : List WaitReason) :
    (pauseAgain ⟨cx.frames.hasState⟩ next again).exec execute cx =
      (next ⟨cx.frames.hasState⟩).exec execute cx := by
  induction again with
  | nil => rfl
  | cons reason more ih =>
    rw [pauseAgain, exec, Op.perform, Context.pause_pausing pausing]
    exact ih

theorem Script.exec_goOnInsisting {cx : Context ρ ε} {reply : Ending (Called α)}
    (told : ∀ suspension, reply = .returned (.paused suspension) →
      cx.frames.pausing = true ∧ suspension = ⟨cx.frames.hasState⟩)
    {next next' : α → Script ρ ε}
    (goes : ∀ value, reply = .returned (.returned value) →
      (next' value).exec execute' cx = (next value).exec execute cx)
    (again : List WaitReason) (marker : UInt32) (locals : Value) :
    (goOnInsisting again marker locals next' reply).exec execute' cx =
      (goOn marker locals next reply).exec execute cx := by
  rcases reply with (value | suspension) | unwind | payload
  · exact goes value rfl
  · obtain ⟨pausing, rfl⟩ := told suspension rfl
    rw [goOnInsisting, exec_pauseAgain pausing, goOn]
    rfl
  · rfl
  · rfl

theorem Context.call_congr {body body' : Context ρ ε → Ending α × Context ρ ε} {cx : Context ρ ε}
    (same : body' { cx with frames := cx.frames.enter } =
      body { cx with frames := cx.frames.enter }) : call body' cx = call body cx := by
  simp only [call, same]

variable {below : List (Option (Slot ρ))} {own : Option (Slot ρ)}
  {above spare : List (Option (Slot ρ))} {marker : UInt32} {cx : Context ρ ε}

theorem told_of_wound (held : own ≠ some .pause) {suspension : Suspension}
    (same : (.returned (.paused ⟨own.isSome⟩) : Ending (Called α)) =
      .returned (.paused suspension)) :
    (wound below own above marker true).pausing = true ∧
      suspension = ⟨(wound below own above marker true).hasState⟩ := by
  refine ⟨rfl, ?_⟩
  rw [hasState_eq_isSome (Nat.succ_pos _) (by rwa [current_wound]), current_wound]
  exact (Called.paused.inj (Ending.returned.inj same)).symm

theorem call_insists {σ : ValueType} {callee : Routine ε σ} (held : own ≠ some .pause)
    {body body' : Context ρ ε → Ending Value × Context ρ ε} {events : List (Event ε)}
    {value : Value}
    (plays : Proceeds callee (below ++ [own]) { cx with frames := cx.frames.enter } events value
      (body { cx with frames := cx.frames.enter }))
    (same : body' { cx with frames := cx.frames.enter } =
      body { cx with frames := cx.frames.enter })
    {next next' : Value → Script ρ ε}
    (goes : ∀ (value : Value) (above : List (Option (Slot ρ))) (reason : Option WaitReason)
      (effects : List ε), Blank above →
      let cx := cx.reached (wound below none above freshMarker false) reason effects
      (next' value).exec execute' cx = (next value).exec execute cx)
    (again : List WaitReason) (marker : UInt32) (locals : Value) :
    (Script.goOnInsisting again marker locals next' (Context.call body' cx).1).exec execute'
        (Context.call body' cx).2 =
      (Script.goOn marker locals next (Context.call body cx).1).exec execute
        (Context.call body cx).2 := by
  rw [Context.call_congr same]
  generalize ran : body { cx with frames := cx.frames.enter } = outcome at plays
  cases plays with
  | returns effects value above marker reason blank kept =>
    have returned : Context.call body cx = (_, cx.reached _ reason effects) :=
      Context.call_returned ran rfl
    have blank' : Blank (none :: above) := blank_cons_iff.mpr ⟨rfl, blank⟩
    rw [returned]
    exact goes value _ reason effects blank'
  | suspends effects reason events value saved frames spare marker blank stopped =>
    have suspended : Context.call body cx = (_, cx.reached _ (some reason) effects) :=
      Context.call_suspended ran rfl
    rw [suspended]
    apply Script.exec_goOnInsisting
    · intro suspension paused
      exact told_of_wound held paused
    · intro value returned
      cases returned

theorem code_insists {r : Routine ε τ} (marked : r.WellMarked) (again : Insistence)
    (locals : Locals τ) (frames : cx.frames = wound below none above marker false)
    (blank : Blank above) :
    (r.insistentCode again locals).exec execute' cx = (r.code locals).exec execute cx := by
  induction r generalizing again below above marker cx with
  | finish result => rfl
  | effect entry change rest ih => exact ih marked again (change locals) frames blank
  | suspend own reason rest ih =>
    have paused := Context.pause_fresh frames blank (reason locals)
    rw [Routine.insistentCode, Routine.code, Script.exec, Script.exec, Op.perform, Op.perform,
      paused]
    apply Script.exec_goOnInsisting
    · intro suspension told
      exact told_of_wound (by simp) told
    · intro value returned
      cases returned
  | call own callee args absorb rest calleeIh ih =>
    obtain ⟨-, -, callee_marked, rest_marked⟩ := marked
    have entered : { cx with frames := cx.frames.enter }.frames =
        wound (below ++ [none]) none above.tail freshMarker false :=
      (congrArg FrameStack.enter frames).trans (enter_wound_blank _ _ _ _ _ blank)
    have fresh : { cx with frames := cx.frames.enter }.frames.marker = freshMarker := by
      rw [entered, marker_wound]
    have plays := code_proceeds execute callee_marked (args locals) entered
      (blank_tail blank)
    rw [← Script.exec_enterMarked_fresh fresh _ callee.resume] at plays
    rw [Routine.insistentCode, Routine.code, Script.exec, Script.exec]
    refine call_insists (by simp) plays ?_ (fun value above reason effects blank => ?_) _ _ _
    · rw [Script.exec_enterMarked_fresh fresh, Script.exec_enterMarked_fresh fresh]
      exact calleeIh callee_marked _ (args locals) entered (blank_tail blank)
    · exact ih rest_marked again (absorb locals value) rfl blank

theorem Routine.Next.insistentResume {r rest : Routine ε τ} (next : Routine.Next r rest)
    (marked : r.WellMarked) (again : Insistence) {marker : UInt32}
    (inside : marker ∈ rest.markers) :
    r.insistentResume (ρ := ρ) again marker = rest.insistentResume again marker := by
  cases next with
  | effect => rfl
  | suspend own =>
    have other : ¬ own = marker := fun same => marked.2.1 (same ▸ inside)
    rw [Routine.insistentResume, if_neg other]
  | call own =>
    have other : ¬ own = marker := fun same => marked.2.1 (same ▸ inside)
    rw [Routine.insistentResume, if_neg other]

theorem resume_insists (execute execute' : Context ρ ε → Ending Unit × Context ρ ε)
    {r : Routine ε τ} {saved : SavedFrame} {inner : List SavedFrame} {events : List (Event ε)}
    {value : Value}
    (stopped : Routine.Stopped r saved inner events value) (marked : r.WellMarked)
    (again : Insistence) :
    ∃ (plain insisting : Locals τ → Script ρ ε) (locals : Locals τ),
      r.resume saved.marker = some plain ∧
      r.insistentResume again saved.marker = some insisting ∧ saved.locals = locals.val ∧
      ∀ {below spare : List (Option (Slot ρ))} {marker : UInt32} {cx : Context ρ ε},
        cx.frames = wound below saved.slot
          (inner.map SavedFrame.slot ++ some Slot.pause :: spare) marker false →
        Blank spare →
        (insisting locals).exec execute' cx = (plain locals).exec execute cx := by
  -- On how the frame was left, from the innermost one outwards.
  induction stopped generalizing again with
  | suspend own reason rest locals =>
    refine ⟨_, _, locals, by rw [Routine.resume, if_pos rfl],
      by rw [Routine.insistentResume, if_pos rfl], rfl, ?_⟩
    intro below spare marker cx frames blank
    rw [Script.exec, Script.exec, Op.perform, Op.perform]
    cases requested : cx.cancelRequest with
    | some request =>
      rw [Context.pause_cancelled frames requested]
      rfl
    | none =>
      rw [Context.pause_rewound frames requested]
      have blank' : Blank (none :: spare) := blank_cons_iff.mpr ⟨rfl, blank⟩
      exact code_insists marked.2.2 again locals rfl blank'
  | @call _ _ own callee args absorb rest locals first deeper events value stopped ih =>
    obtain ⟨legal, -, callee_marked, rest_marked⟩ := marked
    obtain ⟨plain, insisting, inside, resumes, resumes', held, same⟩ :=
      ih callee_marked fun path => again (own :: path)
    refine ⟨_, _, locals, by rw [Routine.resume, if_pos rfl],
      by rw [Routine.insistentResume, if_pos rfl], rfl, ?_⟩
    intro below spare marker cx frames blank
    have entered : { cx with frames := cx.frames.enter }.frames =
        wound (below ++ [SavedFrame.slot ⟨own, locals.val⟩]) first.slot
          (deeper.map SavedFrame.slot ++ some Slot.pause :: spare) first.marker false :=
      (congrArg FrameStack.enter frames).trans (SavedFrame.enter_saved _ _ _ _ _ _)
    have callee_legal := callee_marked.legal stopped.inside
    have plain_enters := Script.exec_enterMarked_rewound execute callee_legal held
      entered (callee.code (args locals)) resumes
    have insisting_enters := Script.exec_enterMarked_rewound execute' callee_legal held
      entered (callee.insistentCode (fun path => again (own :: path)) (args locals)) resumes'
    have bodies := (insisting_enters.trans (same entered blank)).trans plain_enters.symm
    rw [Script.exec, Script.exec]
    -- Under a request both only stop; without one both play what was still to come.
    cases requested : cx.cancelRequest with
    | some request =>
      obtain ⟨known, given, found, kept, ends⟩ :=
        resume_cancelled execute request stopped callee_marked
      obtain rfl := Option.some.inj (resumes.symm.trans found)
      obtain rfl := Subtype.ext (held.symm.trans kept)
      obtain ⟨above, ran⟩ := ends _ entered requested
      rw [← plain_enters] at ran
      have called : Context.call _ cx = (_, cx.reached _ none []) :=
        Context.call_unwound (by simp) ran rfl
      rw [Context.call_congr bodies, called]
      rfl
    | none =>
      obtain ⟨known, given, found, kept, plays⟩ :=
        resume_proceeds execute stopped callee_marked
      obtain rfl := Option.some.inj (resumes.symm.trans found)
      obtain rfl := Subtype.ext (held.symm.trans kept)
      have callee_plays := plays entered blank requested
      rw [← plain_enters] at callee_plays
      refine call_insists (by simp [SavedFrame.slot]) callee_plays bodies
        (fun value above reason effects blank => ?_) _ _ _
      exact code_insists rest_marked again (absorb locals value) rfl blank
  | later next stopped ih =>
    obtain ⟨plain, insisting, locals, resumes, resumes', held, same⟩ :=
      ih (next.wellMarked marked) again
    refine ⟨plain, insisting, locals, ?_, ?_, held, same⟩
    · rw [next.resume marked stopped.inside, resumes]
    · rw [next.insistentResume marked again stopped.inside, resumes']

end

namespace World

variable {w : World ρ ε} {task : Nat} {t : Task ρ} {r : Routine ε τ} {args : Locals τ}

theorem runTask_unentered_congr {α β : Type} (unentered : w.entry task = none)
    (execute : Context ρ ε → Ending α × Context ρ ε)
    (execute' : Context ρ ε → Ending β × Context ρ ε) :
    w.runTask execute task = w.runTask execute' task := by
  cases found : w.tasks[task]? with
  | none => simp only [runTask, found]
  | some t =>
    simp only [entry, found, Option.bind_some] at unentered
    cases admission : t.admission with
    | entered frames => simp [admission] at unentered
    | refused | cancelled | misused => simp only [runTask, found, admission]

theorem entry_frames {cx : Context ρ ε} (found : w.tasks[task]? = some t)
    (unwound : t.frames.depth = 0) (entered : w.entry task = some cx) :
    cx.frames = wound [] (t.frames.slots.headD none) t.frames.slots.tail
      (shown (t.frames.slots.headD none)) false := by
  simp only [entry, found, Option.bind_some] at entered
  split at entered
  · next frames admission =>
    rw [← Option.some.inj entered]
    have begun := Task.begin_of_admission admission
    rw [begin_unwound unwound] at begun
    exact (Except.ok.inj begun).symm
  · cases entered

theorem execute_insists (found : w.tasks[task]? = some t) (marked : r.WellMarked)
    {events : List (Event ε)} (awaits : Awaits r args t events) {cx : Context ρ ε}
    (entered : w.entry task = some cx) (again : Insistence) (depth : Nat) :
    Script.execute (fun _ => r.insistent again args) (depth + 1) cx =
      Script.execute (fun _ => r.woven args) (depth + 1) cx := by
  simp only [Script.execute]
  generalize Script.execute (fun _ => r.insistent again args) depth = execute'
  generalize Script.execute (fun _ => r.woven args) depth = execute
  have same : (r.insistent again args).exec execute' cx = (r.woven args).exec execute cx := by
    rw [Routine.insistent, Routine.woven]
    cases awaits with
    | fresh new unset empty =>
      have frames := entry_frames found (by rw [empty]) entered
      rw [empty] at frames
      have fresh : cx.frames.marker = freshMarker := by rw [frames, marker_wound]; rfl
      rw [Script.exec_enterMarked_fresh fresh, Script.exec_enterMarked_fresh fresh]
      exact code_insists marked again args frames (by simp [Blank])
    | stopped suspended waits saved inner events value parked rest =>
      obtain ⟨unwound, spare, blank, slots⟩ := parked
      have frames := entry_frames found unwound entered
      rw [slots] at frames
      obtain ⟨plain, insisting, locals, resumes, resumes', held, same⟩ :=
        resume_insists execute execute' rest marked again
      have legal := marked.legal rest.inside
      rw [Script.exec_enterMarked_rewound execute legal held frames _ resumes,
        Script.exec_enterMarked_rewound execute' legal held frames _ resumes']
      exact same frames blank
  rw [same]

theorem runTask_insists (found : w.tasks[task]? = some t) (marked : r.WellMarked)
    {events : List (Event ε)} (awaits : Awaits r args t events) (again : Insistence)
    (depth : Nat) :
    w.runTask (Script.execute (fun _ => r.insistent again args) (depth + 1)) task =
      w.runTask (Script.execute (fun _ => r.woven args) (depth + 1)) task := by
  cases entered : w.entry task with
  | none => exact runTask_unentered_congr entered _ _
  | some cx =>
    rw [runTask_entered entered, runTask_entered entered,
      execute_insists found marked awaits entered]

end World

def Routine.Followed (r : Routine ε τ) (args : Locals τ) (t : Task ρ) : Prop :=
  t.state = .done ∨ ∃ events, Awaits r args t events

theorem Routine.followed_steady (r : Routine ε τ) (args : Locals τ) :
    Task.Steady (ρ := ρ) (r.Followed args) := by
  apply Task.steady_of
  · rintro t request (done | ⟨events, awaits⟩)
    · exact .inl done
    · exact .inr ⟨events, awaits.requested _⟩
  · rintro t reason latches now suspended waiting (done | ⟨events, awaits⟩)
    · exact .inl done
    · cases awaits with
      | fresh new => cases suspended.symm.trans new
      | stopped _ waits saved frames events value parked rest =>
        have still := ended_poll (waiting ▸ waits) latches now t.id
        let asked := { t with reason := some (reason.poll latches now t.id).2 }
        exact .inr ⟨events, .stopped (t := asked) suspended still saved frames events value parked
          rest⟩

/-- Two calls that differ at most in that the routine of a task insists. -/
inductive TaskCall.Insists (task : Nat) (r : Routine ε τ) (args : Locals τ) (depth : Nat) :
    TaskCall ρ ε → TaskCall ρ ε → Prop where
  | run (again : Insistence) : Insists task r args depth
      (.run task (fun _ => r.woven args) depth) (.run task (fun _ => r.insistent again args) depth)
  | create (entry : ρ) (classifier : Nat) :
      Insists task r args depth (.create entry classifier) (.create entry classifier)
  | cancel (other : Nat) (request : CancelReason) :
      Insists task r args depth (.cancel other request) (.cancel other request)
  | ask (other : Nat) : Insists task r args depth (.ask other) (.ask other)

namespace World

variable {w : World ρ ε} {task : Nat} {r : Routine ε τ} {args : Locals τ}

theorem Has.runWoven (follows : w.Has task (r.Followed args)) (marked : r.WellMarked)
    (depth : Nat) :
    (w.runTask (Script.execute (fun _ => r.woven args) (depth + 1)) task).2.Has task
      (r.Followed args) := by
  obtain ⟨t, found, done | ⟨events, awaits⟩⟩ := follows
  · rw [runTask_of_done found done]
    exact ⟨t, found, .inl done⟩
  · cases requested : t.cancel with
    | some request =>
      have cancelled := runTask_cancelled found marked awaits requested depth
      rw [cancelled]
      exact Has.updateTask ⟨t, found, .inr ⟨events, awaits⟩⟩ task fun _ _ => .inl rfl
    | none =>
      obtain ⟨effects, t', found', -, -, ⟨-, -, concluded⟩ | ⟨reason, later, -, next⟩⟩ :=
        runTask_awaits found marked awaits requested depth
      · exact ⟨t', found', .inl concluded.done⟩
      · cases ends : reason.outcome? with
        | some outcome =>
          simp only [ends] at next
          exact ⟨t', found', .inl next.2.done⟩
        | none =>
          simp only [ends] at next
          exact ⟨t', found', .inr ⟨later, next.2⟩⟩

theorem answer_insists (follows : w.Has task (r.Followed args)) (marked : r.WellMarked)
    {depth : Nat} {call call' : TaskCall ρ ε}
    (insists : call.Insists task r args (depth + 1) call') :
    w.answer call' = w.answer call ∧ (w.answer call).2.Has task (r.Followed args) := by
  cases insists with
  | run again =>
    refine ⟨?_, follows.runWoven marked depth⟩
    obtain ⟨t, found, done | ⟨events, awaits⟩⟩ := follows
    · simp only [answer, runTask_unentered_congr (entry_of_done found done)
        (Script.execute (fun _ => r.insistent again args) (depth + 1))
        (Script.execute (fun _ => r.woven args) (depth + 1))]
    · simp only [answer, runTask_insists found marked awaits again depth]
  | create | cancel | ask =>
    exact ⟨rfl, follows.asked (r.followed_steady args) (by simp)⟩

theorem answerAll_insists (follows : w.Has task (r.Followed args)) (marked : r.WellMarked)
    {depth : Nat} {calls calls' : List (TaskCall ρ ε)}
    (insist : List.Forall₂ (TaskCall.Insists task r args (depth + 1)) calls calls') :
    w.answerAll calls' = w.answerAll calls := by
  induction insist generalizing w with
  | nil => rfl
  | cons first _ ih =>
    obtain ⟨same, still⟩ := answer_insists follows marked first
    simp only [answerAll, same, ih still]

end World

/-- A frame whose own slot is no sentinel and that is told of a suspension: whatever it asks for
further, it is told the same, and nothing changes. So a task over a woven routine that insists in
this way, in every frame and at every step, is the task over the routine itself: under every history
of runs, cancellations and questions it has the same answers, effects, captured frames and
outcome. -/
theorem repeated_suspension_is_one :
    (∀ (cx cx' : Context ρ ε) (first : WaitReason) (told : Suspension),
      cx.frames.current ≠ some .pause → cx.pause first = (.returned (.paused told), cx') →
      ∀ more : List WaitReason,
        cx'.pauses more = (List.replicate more.length (.returned (.paused told)), cx')) ∧
    ∀ (w : World ρ ε) (entry : ρ) (classifier depth : Nat) (r : Routine ε τ), r.WellMarked →
      ∀ (args : Locals τ) (calls calls' : List (TaskCall ρ ε)),
        List.Forall₂ (TaskCall.Insists w.tasks.length r args (depth + 1)) calls calls' →
        (w.addTask entry classifier).answerAll calls' =
          (w.addTask entry classifier).answerAll calls := by
  constructor
  · intro cx cx' first told own paused more
    obtain ⟨pausing, rfl⟩ := Context.told_of_pause own paused
    exact Context.pauses_pausing pausing more
  · intro w entry classifier depth r marked args calls calls' insist
    have created : (w.addTask entry classifier).tasks[w.tasks.length]? = some
        { id := .ofIndex w.tasks.length, entry, classifier } := by
      simp [World.addTask]
    have awaits : Awaits r args { id := .ofIndex w.tasks.length, entry, classifier } _ :=
      .fresh rfl rfl rfl
    exact World.answerAll_insists ⟨_, created, .inr ⟨_, awaits⟩⟩ marked insist

/-- In each run the entry frame asks for another point in time after a suspension, and the frames
inside it ask twice. -/
theorem insisting_counts_run_the_same :
    let cx : Context Unit (List Int64) :=
      { task := 0, id := .ofIndex 0, classifier := 0, reason := none, object := ()
        frames := .wound [] none [] freshMarker false, world := { scheduler := default } }
    let again : Nat → Insistence := fun turn path _ =>
      if path.length = 1 then [.on (.deadline turn)] else [.yield, .on (.latch turn)]
    let w : World Unit (List Int64) := { scheduler := default }
    let args : Locals .vector := ⟨.vector [1], rfl⟩
    let plain : List (TaskCall Unit (List Int64)) :=
      (List.range 6).map fun _ => .run 0 (fun _ => Routine.countsTwice.woven args) 1
    let insisting : List (TaskCall Unit (List Int64)) := (List.range 6).map fun turn =>
      .run 0 (fun _ => Routine.countsTwice.insistent (again turn) args) 1
    cx.frames.current ≠ some .pause ∧ (cx.pause .yield).1 = .returned (.paused ⟨false⟩) ∧
      ((cx.pause .yield).2.pauses [.on (.deadline 5), .yield]).1 =
        List.replicate 2 (.returned (.paused ⟨false⟩)) ∧
      Routine.countsTwice.WellMarked ∧
      List.Forall₂ (TaskCall.Insists 0 Routine.countsTwice args 1) plain insisting ∧
      (w.addTask () 0).answerAll insisting = (w.addTask () 0).answerAll plain := by
  intro cx again w args plain insisting
  have own : cx.frames.current ≠ some .pause := by simp [cx]
  have marked : Routine.countsTwice.WellMarked := by decide
  have insist : List.Forall₂ (TaskCall.Insists 0 Routine.countsTwice args 1) plain insisting := by
    rw [List.forall₂_map_left_iff, List.forall₂_map_right_iff, List.forall₂_same]
    intro turn _
    exact .run (again turn)
  obtain ⟨repeated, transparent⟩ :=
    repeated_suspension_is_one (ρ := Unit) (ε := List Int64) (τ := .vector)
  have told := repeated cx _ .yield ⟨false⟩ own rfl [.on (.deadline 5), .yield]
  exact ⟨own, rfl, congrArg Prod.fst told, marked, insist,
    transparent w () 0 0 _ marked args _ _ insist⟩

end ResumableTasks
