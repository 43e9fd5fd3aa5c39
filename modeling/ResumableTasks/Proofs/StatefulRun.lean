import ResumableTasks.Proofs.PlayedFrames
/-!
One re-entry of an object with state. Its frame, fresh or rewound, plays its direct execution up to
the next suspension, which leaves behind what the direct execution says, or up to its end.
-/
namespace ResumableTasks

open FrameStack Slot Occurrence

variable {σ ω ε ρ : Type}

namespace Slot

def routine? : Slot ρ → Option ρ
  | .saved _ (.routine r) => some r
  | _ => none

end Slot

namespace Play

def under (request : Option CancelReason) (state : σ) (play : Play ρ σ ε) : Play ρ σ ε :=
  match request with
  | none => play
  | some request => ⟨[], .left (.cancel request), state⟩

theorem under_inFrame_andThen (request : Option CancelReason) (state : σ) (play : Play ρ σ ε)
    (slot : Slot ρ) (next : Value → σ → Play ρ σ ε) :
    ((play.under request state).inFrame slot).andThen next =
      ((play.inFrame slot).andThen next).under request state := by
  cases request <;> rfl

theorem under_within (request : Option CancelReason) (state outer : σ) (play : Play ρ σ ε)
    (object : σ → ρ) :
    (play.under request state).within object outer =
      (play.within object outer).under request outer := by
  cases request <;> rfl

theorem under_state {play : Play ρ σ ε} {state : σ} (request : Option CancelReason)
    (same : play.state = state) : (play.under request state).state = state := by
  cases request with
  | none => exact same
  | some request => rfl

theorem under_returned {play : Play ρ σ ε} (goes : Value → σ → Prop)
    (returns : ∀ value, play.close = .returned value → goes value play.state)
    (request : Option CancelReason) (state : σ) (value : Value) :
    (play.under request state).close = .returned value →
      goes value (play.under request state).state := by
  cases request with
  | none => exact returns value
  | some request => nofun

end Play

namespace Method

/-- A frame that was left at a step of its own, with the slots of its frame and of all that are
further in, the state of the object, and the play that is still to come. -/
inductive Stopped : FrameCode σ ω ε → (depth : Nat) → List (Slot (RoutineObject σ ω ε)) → σ →
    Play (RoutineObject σ ω ε) σ ε → Prop where
  | suspend {code : FrameCode σ ω ε} {depth : Nat} {state : σ} {marker : UInt32} {locals : Value}
      {reason : WaitReason} {rest : Method σ ω ε}
      (resumes : code.Resumes marker locals state (.suspend marker locals reason rest))
      (goes : rest.Woven code depth state) :
      Stopped code depth [.saved marker (.value locals)] state (rest.direct state)
  | call {code callee : FrameCode σ ω ε} {depth : Nat} {state : σ} {marker : UInt32}
      {locals : Value} {rest : Value → σ → Method σ ω ε}
      (resumes : ∀ later, code.Resumes marker locals later
        (.call marker locals callee.type callee.known callee.again callee.start rest))
      {inner : List (Slot (RoutineObject σ ω ε))} {play : Play (RoutineObject σ ω ε) σ ε}
      (goes : ∀ value, play.close = .returned value →
        (rest value play.state).Woven code depth play.state) :
      Stopped callee depth inner state play →
      Stopped code depth (.saved marker (.value locals) :: inner) state
        ((play.inFrame (.saved marker (.value locals))).andThen
          fun value later => (rest value later).direct later)
  | invoke {code callee : FrameCode σ ω ε} {depth : Nat} {state initial kept : σ}
      {marker : UInt32} {locals : Value} {others : Nat → ω} {rest : Method σ ω ε}
      (resumes : code.Resumes marker locals state (.invoke marker locals callee.type callee.known
        callee.again callee.start initial others rest))
      (goes : rest.Woven code (depth + 1) state)
      {inner : List (Slot (RoutineObject σ ω ε))} {play : Play (RoutineObject σ ω ε) σ ε} :
      Stopped callee depth inner kept play →
      Stopped code (depth + 1) (.saved marker (.value locals) ::
          .saved 1 (.routine (.stateful callee kept)) :: inner) state
        (((play.within (.stateful callee) state).inFrame (.saved marker (.value locals))).andThen
          fun _ _ => rest.direct state)

end Method

section

variable {owner code : FrameCode σ ω ε} {state : σ} {turn depth : Nat}
  {execute : Context (RoutineObject σ ω ε) ε → Ending Unit × Context (RoutineObject σ ω ε) ε}
  {inner : Context (RoutineObject σ ω ε) ε → List (Act (RoutineObject σ ω ε) ε)}
  {stands : List (Slot (RoutineObject σ ω ε)) → σ → Play (RoutineObject σ ω ε) σ ε → Prop}
  {object : σ → RoutineObject σ ω ε}
  {below above spare : List (Option (Slot (RoutineObject σ ω ε)))}
  {own : Option (Slot (RoutineObject σ ω ε))} {marker : UInt32}
  {cx : Context (RoutineObject σ ω ε) ε} {resumed : List (RoutineObject σ ω ε)}
  {play : Play (RoutineObject σ ω ε) σ ε}

theorem withState_plays (holds : cx.object = .stateful owner state)
    (use : σ → Script (RoutineObject σ ω ε) ε)
    (plays : Plays id stands object below cx resumed play ((use state).actsBy execute inner cx)
      ((use state).exec execute cx)) :
    Plays id stands object below cx resumed play ((Script.withState use).actsBy execute inner cx)
      ((Script.withState use).exec execute cx) := by
  have noted := plays.noting [.op .object] rfl
  simp only [Script.actsBy, Script.withState, Script.trace, Script.exec, Op.perform, holds]
    at noted ⊢
  exact noted

theorem fresh_plays (code : FrameCode σ ω ε) (fresh : cx.frames.marker = freshMarker)
    (holds : cx.object = .stateful owner state)
    (plays : Plays id stands object below cx resumed play
      (((code.start state).script turn true).actsBy execute inner cx)
      (((code.start state).script turn true).exec execute cx)) :
    Plays id stands object below cx resumed play ((code.script turn).actsBy execute inner cx)
      ((code.script turn).exec execute cx) := by
  have started := withState_plays holds (fun state => (code.start state).script turn true) plays
  have noted := started.noting [.op .look] rfl
  simp only [FrameCode.script, Script.enterFrame, Script.enterMarked, Script.actsBy, Script.trace,
    Script.exec, Op.perform, Context.view, fresh, ↓reduceIte] at noted ⊢
  exact noted

theorem rewound_plays (saved : SavedFrame) {step : Method σ ω ε}
    (resumes : code.Resumes saved.marker saved.locals state step)
    (frames : cx.frames = wound below saved.slot above saved.marker false)
    (holds : cx.object = .stateful owner state)
    (plays : Plays id stands object below cx resumed play
      ((step.script turn false).actsBy execute inner cx)
      ((step.script turn false).exec execute cx)) :
    Plays id stands object below cx resumed play ((code.script turn).actsBy execute inner cx)
      ((code.script turn).exec execute cx) := by
  obtain ⟨legal, fits, known, rfl⟩ := resumes
  have marked : cx.frames.marker = saved.marker := by rw [frames, marker_wound]
  have restored : cx.restore code.type = .ok saved.locals := Context.restore_saved fits frames
  have started := withState_plays holds
    (fun state => (code.again saved.marker saved.locals state).script turn false) plays
  have noted := started.noting [.op .look, .op (.restore code.type)] rfl
  simp only [FrameCode.script, Script.enterFrame, Script.enterMarked, Script.actsBy, Script.trace,
    Script.exec, Op.perform, Context.view, marked, legal.1, known, restored, fits, ↓reduceIte,
    ↓reduceDIte] at noted ⊢
  exact noted

theorem leave_plays (way : Leaving) (frames : cx.frames = wound below none above marker false)
    (holds : cx.object = object state) :
    Plays id stands object below cx [] ⟨[], .left way, state⟩
      (way.script.actsBy execute inner cx) (way.script.exec execute cx) := by
  have stays (reason : Option WaitReason) : { cx with reason } =
      cx.played (object state) (wound below none above marker false) reason [] := by
    rw [← frames, ← holds]
    simp [Context.played, Context.reached]
  cases way with
  | exit result =>
    cases result <;>
    · simp only [Leaving.script, Script.actsBy, Script.trace, Script.exec, Op.perform,
        Context.exitWith, stays]
      refine .leaves (.still rfl) (.exit _) state _ _ ⟨fun _ => ⟨above, marker, rfl⟩, ?_⟩
      rintro _ ⟨rfl⟩
      exact ⟨rfl, rfl⟩
  | cancel request =>
    have ended : (Leaving.cancel request).script.exec execute cx =
        (.unwound (.cancelled request), cx.played (object state) _ cx.reason []) :=
      congrArg (Prod.mk _) (stays cx.reason)
    rw [ended]
    exact .leaves (.still rfl) (.cancel request) state _ _ ⟨fun _ => ⟨above, marker, rfl⟩, by simp⟩
  | fail error =>
    have ended : (Leaving.fail error).script.exec execute cx =
        (.unwound (.failed error), cx.played (object state) _ cx.reason []) :=
      congrArg (Prod.mk _) (stays cx.reason)
    rw [ended]
    exact .leaves (.still rfl) (.fail error) state _ _ ⟨fun _ => ⟨above, marker, rfl⟩, by simp⟩
  | panic payload =>
    have ended : (Leaving.panic payload).script.exec execute cx =
        (.panicked payload, cx.played (object state) _ cx.reason []) :=
      congrArg (Prod.mk _) (stays cx.reason)
    rw [ended]
    exact .leaves (.still rfl) (.panic payload) state _ _ ⟨fun _ => ⟨above, marker, rfl⟩, by simp⟩

theorem act_plays (quiet : List (Occurrence (RoutineObject σ ω ε) σ ε))
    {op : Op (RoutineObject σ ω ε) ε} (opening : Opening [] quiet [.op op]) {reply : op.Reply}
    {later : σ} (performed : op.perform execute cx =
      (reply, cx.played (object later) cx.frames cx.reason (quiet.filterMap effect?)))
    {next : op.Reply → Script (RoutineObject σ ω ε) ε}
    (plays :
      let cx := cx.played (object later) cx.frames cx.reason (quiet.filterMap effect?)
      Plays id stands object below cx [] play ((next reply).actsBy execute inner cx)
        ((next reply).exec execute cx)) :
    Plays id stands object below cx [] (play.before quiet)
      ((Script.act op next).actsBy execute inner cx) ((Script.act op next).exec execute cx) := by
  simp only [Script.actsBy, Script.trace, Script.exec, performed]
  exact .after opening (.inl rfl) plays

def Primitive (state : σ) (inner : List (Slot ρ)) (later : σ) (play : Play ρ σ ε) : Prop :=
  inner = [] ∧ later = state ∧ play = ⟨[], .returned .unit, state⟩

theorem suspended_answers (frames : cx.frames = wound below none above marker false)
    (blank : Blank above) (holds : cx.object = object state) (reason : WaitReason) :
    Answers (fun _ => ()) (Primitive state) object below none cx []
      ⟨[.wait reason state []], .returned .unit, state⟩ [.op (.pause reason)]
      (cx.pause reason) := by
  rw [Context.pause_fresh frames blank reason, Context.reached_eq_played, holds]
  have opening : Opening (σ := σ) [] [] [(.op (.pause reason) : Act (RoutineObject σ ω ε) ε)] :=
    .still rfl
  have stood : Primitive (ε := ε) state [] state (⟨[], .returned .unit, state⟩ :
      Play (RoutineObject σ ω ε) σ ε) := ⟨rfl, rfl, rfl⟩
  exact .suspends opening reason state [] above.tail (blank_tail blank) stood

theorem resumed_answers
    (frames : cx.frames = wound below own (some .pause :: spare) marker false)
    (blank : Blank spare) (holds : cx.object = object state) (reason : WaitReason) :
    Answers (fun _ => ()) (Primitive state) object below own cx []
      (.under cx.cancelRequest state ⟨[], .returned .unit, state⟩) [.op (.pause reason)]
      (cx.pause reason) := by
  rw [Context.pause_sentinel frames reason, Context.reached_eq_played, holds]
  cases cx.cancelRequest with
  | none =>
    exact .returns (.still rfl) .unit state _ none (blank_cons_iff.mpr ⟨rfl, blank⟩) (.inr rfl)
  | some request =>
    exact .leaves (.still rfl) (.cancel request) state _ none ⟨fun _ => ⟨_, _, rfl⟩, by simp⟩

theorem code_plays (others : ω → Script (RoutineObject σ ω ε) ε) (turn : Nat) {m : Method σ ω ε}
    (woven : m.Woven code depth state) (frames : cx.frames = wound below none above marker false)
    (blank : Blank above) (holds : cx.object = .stateful owner state) :
    Plays id (Method.Stopped code depth) (.stateful owner) below cx [] (m.direct state)
      ((m.script turn true).actsBy (Script.execute (RoutineObject.enter others turn) depth)
        (Script.acts (RoutineObject.enter others turn) depth) cx)
      ((m.script turn true).exec (Script.execute (RoutineObject.enter others turn) depth) cx) := by
  -- On the code of the frame; a callee has frames and an object of its own.
  induction m generalizing code depth state owner below above marker cx with
  | finish result =>
    have ended (execute : Context (RoutineObject σ ω ε) ε →
        Ending Unit × Context (RoutineObject σ ω ε) ε) :
        ((Method.finish result).script turn true).exec execute cx =
          (.returned result, cx.played (.stateful owner state)
            (wound below none above marker false) cx.reason []) := by
      rw [← holds, ← frames, Context.played_self]
      rfl
    rw [ended]
    exact .returns (.still rfl) result state above marker cx.reason blank (.inl rfl)
  | leave way => exact leave_plays way frames holds
  | effect entry rest ih =>
    have emitted (execute : Context (RoutineObject σ ω ε) ε →
        Ending Unit × Context (RoutineObject σ ω ε) ε) : (Op.emit entry).perform execute cx =
          ((), cx.played (.stateful owner state) cx.frames cx.reason [entry]) := by
      rw [← holds]
      rfl
    exact act_plays [.effect entry] ⟨by simp [Quiet, isWait], rfl⟩ (emitted _)
      (ih woven frames blank rfl)
  | store later rest ih =>
    have stored (execute : Context (RoutineObject σ ω ε) ε →
        Ending Unit × Context (RoutineObject σ ω ε) ε) :
        (Op.become (cx.object.holding later)).perform execute cx =
          ((), cx.played (.stateful owner later) cx.frames cx.reason []) := by
      simp [Op.perform, holds, RoutineObject.holding, Context.played, Context.reached]
    refine Plays.noting [.op .object] rfl (act_plays [] (.still rfl) (stored _) ?_)
    exact ih woven frames blank rfl
  | suspend own locals reason rest ih =>
    obtain ⟨resumes, goes⟩ := woven
    have answers := suspended_answers frames blank holds reason
    apply goOn_plays ⟨own, locals⟩ resumes.1 (.inl rfl) answers fun _ _ => rest.direct state
    · rintro _ _ _ ⟨rfl, rfl, rfl⟩ - -
      exact .suspend resumes goes
    · intro _ _ _ _ _ blank
      exact ih goes rfl blank rfl
  | call own locals type known again start rest _ startIh restIh =>
    obtain ⟨resumes, callee_woven, goes⟩ := woven
    let callee : FrameCode σ ω ε := ⟨type, known, again, start⟩
    have entered : { cx with frames := cx.frames.enter }.frames =
        wound (below ++ [none]) none above.tail freshMarker false :=
      (congrArg FrameStack.enter frames).trans (enter_wound_blank _ _ _ _ _ blank)
    have callee_plays := startIh state callee_woven entered (blank_tail blank) holds
    have answers := call_answers (fresh_plays ⟨type, known, again, start⟩
      (by rw [entered, marker_wound]) holds callee_plays)
    rw [Method.script, Script.exec, Script.actsBy_call]
    apply goOn_plays ⟨own, locals⟩ (resumes state).1 (.inl rfl) answers
      fun value later => (rest value later).direct later
    · intro inner later play stopped close same
      refine Method.Stopped.call resumes ?_ stopped
      rw [close, same]
      exact goes
    · intro value above reason effects returned blank
      exact withState_plays rfl _ (restIh value _ (goes value returned) rfl blank rfl)
  | invoke own locals type known again start initial later rest _ startIh restIh =>
    obtain ⟨resumes, ⟨depth, rfl, callee_woven⟩, goes⟩ := woven
    let target : RoutineObject σ ω ε := .stateful ⟨type, known, again, start⟩ initial
    have found : (if cx.frames.enter.rewinding = true then cx.frames.enter.take .routine
        else .ok (target, cx.frames.enter)) =
          .ok (target, wound (below ++ [none]) none above.tail freshMarker false) := by
      rw [frames, enter_wound_blank _ _ _ _ _ blank]
      rfl
    let inside : Context (RoutineObject σ ω ε) ε := { cx with
      frames := (wound (below ++ [none]) none above.tail freshMarker false).enter
      object := target }
    have entered : inside.frames = wound (below ++ [none] ++ [none]) none above.tail.tail
        freshMarker false := enter_wound_blank _ _ _ _ _ (blank_tail blank)
    have started := fresh_plays ⟨type, known, again, start⟩ (by rw [entered, marker_wound]) rfl
      (startIh initial callee_woven entered (blank_tail (blank_tail blank)) rfl)
    have executed := execute_plays (RoutineObject.enter others turn) started
    have answers := invoke_answers found holds executed.invoked
    simp only [Method.script, ↓reduceIte]
    rw [Script.exec, Script.actsBy_invoke found]
    apply goOn_plays ⟨own, locals⟩ resumes.1 (.inl rfl) answers fun _ _ => rest.direct state
    · rintro _ _ _ ⟨rfl, inner, kept, play, rfl, stopped, rfl⟩ - -
      exact Method.Stopped.invoke resumes goes stopped
    · intro _ _ _ _ _ blank
      exact restIh goes rfl blank rfl

/-- A rewound frame plays what was still to come, or only stops if this was asked of the task. The
objects that it executes first are those kept further in. -/
theorem resume_plays (others : ω → Script (RoutineObject σ ω ε) ε) (turn : Nat)
    {held : List (Slot (RoutineObject σ ω ε))} (stopped : Method.Stopped code depth held state play)
    (frames :
      let slots := held.map some ++ some Slot.pause :: spare
      cx.frames = wound below (slots.headD none) slots.tail (shown (slots.headD none)) false)
    (blank : Blank spare) (holds : cx.object = .stateful owner state) :
    Plays id (Method.Stopped code depth) (.stateful owner) below cx (held.filterMap Slot.routine?)
      (play.under cx.cancelRequest state)
      ((code.script turn).actsBy (Script.execute (RoutineObject.enter others turn) depth)
        (Script.acts (RoutineObject.enter others turn) depth) cx)
      ((code.script turn).exec (Script.execute (RoutineObject.enter others turn) depth) cx) := by
  -- On how the frame was left, from the innermost one outwards. What is to come of a callee stands
  -- for what is to come here, and so does what a request makes of it.
  induction stopped generalizing owner below cx with
  | @suspend code depth state own locals reason rest resumes goes =>
    refine rewound_plays ⟨own, locals⟩ resumes frames holds ?_
    have answers := resumed_answers frames blank holds reason
    have shown : (rest.direct state : Play _ σ ε) = ((Play.inFrame (.saved own (.value locals))
        ⟨[], .returned .unit, state⟩).andThen fun _ _ => rest.direct state) := rfl
    rw [shown, ← Play.under_inFrame_andThen]
    apply goOn_plays ⟨own, locals⟩ resumes.1 (.inr rfl) answers fun _ _ => rest.direct state
    · rintro _ _ _ ⟨rfl, rfl, rfl⟩ - -
      exact .suspend resumes goes
    · intro _ _ _ _ _ blank
      exact code_plays others turn goes rfl blank
        (congrArg (RoutineObject.stateful owner) (Play.under_state cx.cancelRequest rfl))
  | @call code callee depth state own locals rest resumes inner play goes stopped ih =>
    refine rewound_plays ⟨own, locals⟩ (resumes state) frames holds ?_
    have entered : { cx with frames := cx.frames.enter }.frames = _ :=
      (congrArg FrameStack.enter frames).trans (enter_wound _ _ _ _ _)
    have answers := call_answers (ih entered holds)
    have goes := Play.under_returned (fun value later => (rest value later).Woven code depth later)
      goes cx.cancelRequest state
    rw [Method.script, Script.exec, Script.actsBy_call, ← Play.under_inFrame_andThen]
    apply goOn_plays ⟨own, locals⟩ (resumes state).1 (.inr rfl) answers
      fun value later => (rest value later).direct later
    · intro inner later play stopped close same
      refine .call resumes ?_ stopped
      rw [close, same]
      exact goes
    · intro value above reason effects returned blank
      exact withState_plays rfl _ (code_plays others turn (goes value returned) rfl blank rfl)
  | @invoke code callee depth state initial kept own locals given rest resumes goes inner play
      stopped ih =>
    refine rewound_plays ⟨own, locals⟩ resumes frames holds ?_
    let caller : Option (Slot (RoutineObject σ ω ε)) := some (.saved own (.value locals))
    let target : RoutineObject σ ω ε := .stateful callee kept
    let above := inner.map some ++ some Slot.pause :: spare
    have found : (if cx.frames.enter.rewinding = true then cx.frames.enter.take .routine
        else .ok (.other (given turn), cx.frames.enter)) =
          .ok (target, wound (below ++ [caller]) none above 1 false) := by
      have shows : cx.frames.enter =
          wound (below ++ [caller]) (some (.saved 1 (.routine target))) above 1 false :=
        (congrArg FrameStack.enter frames).trans (enter_wound _ _ _ _ _)
      -- The object is taken out of its slot, which stays empty between slots that are held.
      rw [shows]
      exact take_wound_saved (below ++ [caller]) above 1 false .routine 1 (.routine target) rfl
    let inside : Context (RoutineObject σ ω ε) ε := { cx with
      frames := (wound (below ++ [caller]) none above 1 false).enter, object := target }
    have entered : inside.frames = _ := enter_wound _ _ _ _ _
    have executed := execute_plays (RoutineObject.enter others turn) (ih entered rfl)
    have answers := invoke_answers found holds executed
    simp only [Method.script, Bool.false_eq_true, ↓reduceIte]
    rw [Script.exec, Script.actsBy_invoke found, ← Play.under_inFrame_andThen, ← Play.under_within]
    apply goOn_plays ⟨own, locals⟩ resumes.1 (.inr rfl) answers fun _ _ => rest.direct state
    · rintro _ _ _ ⟨rfl, inner, kept, play, rfl, stopped, rfl⟩ - -
      exact .invoke resumes goes stopped
    · intro _ _ _ _ _ blank
      exact code_plays others turn goes rfl blank rfl

end

end ResumableTasks
