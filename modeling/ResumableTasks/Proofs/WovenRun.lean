import ResumableTasks.Proofs.WoundStack
import ResumableTasks.Script.Routine
/-!
One re-entry of a woven routine. Its frame, fresh or rewound, either returns what the direct
execution returns, with nothing retained from its callees, or is left with its locals captured over
those of its callees, and then what remains of the direct execution is what the saved frames stand
for.
-/
namespace ResumableTasks

open FrameStack Slot

variable {ρ ε α : Type} {τ : ValueType}

namespace Routine

inductive Next : Routine ε τ → Routine ε τ → Prop where
  | effect (entry : Locals τ → ε) (change : Locals τ → Locals τ) (rest : Routine ε τ) :
      Next (.effect entry change rest) rest
  | suspend (marker : UInt32) (reason : Locals τ → WaitReason) (rest : Routine ε τ) :
      Next (.suspend marker reason rest) rest
  | call {σ : ValueType} (marker : UInt32) (callee : Routine ε σ) (args : Locals τ → Locals σ)
      (absorb : Locals τ → Value → Locals τ) (rest : Routine ε τ) :
      Next (.call marker callee args absorb rest) rest

/-- A routine whose frame has saved its marker and locals, over the saved frames of its callees; the
events and the value are those still to come. -/
inductive Stopped : {τ : ValueType} → Routine ε τ → SavedFrame → List SavedFrame →
    List (Event ε) → Value → Prop where
  | suspend {τ : ValueType} (marker : UInt32) (reason : Locals τ → WaitReason)
      (rest : Routine ε τ) (locals : Locals τ) :
      Stopped (.suspend marker reason rest) ⟨marker, locals.val⟩ []
        (rest.direct locals).1 (rest.direct locals).2
  | call {τ σ : ValueType} (marker : UInt32) {callee : Routine ε σ}
      (args : Locals τ → Locals σ) (absorb : Locals τ → Value → Locals τ) (rest : Routine ε τ)
      (locals : Locals τ) {saved : SavedFrame} {frames : List SavedFrame}
      {events : List (Event ε)} {value : Value} :
      Stopped callee saved frames events value →
      Stopped (.call marker callee args absorb rest) ⟨marker, locals.val⟩ (saved :: frames)
        (events ++ (rest.direct (absorb locals value)).1) (rest.direct (absorb locals value)).2
  | later {τ : ValueType} {r rest : Routine ε τ} {saved : SavedFrame}
      {frames : List SavedFrame} {events : List (Event ε)} {value : Value} :
      Next r rest → Stopped rest saved frames events value → Stopped r saved frames events value

theorem Next.wellMarked {r rest : Routine ε τ} (next : Next r rest) (marked : r.WellMarked) :
    rest.WellMarked := by
  cases next with
  | effect => exact marked
  | suspend => exact marked.2.2
  | call => exact marked.2.2.2

theorem Next.markers {r rest : Routine ε τ} (next : Next r rest) {marker : UInt32}
    (inside : marker ∈ rest.markers) : marker ∈ r.markers := by
  cases next with
  | effect => exact inside
  | suspend => exact List.mem_cons_of_mem _ inside
  | call => exact List.mem_cons_of_mem _ inside

theorem Next.resume {r rest : Routine ε τ} (next : Next r rest) (marked : r.WellMarked)
    {marker : UInt32} (inside : marker ∈ rest.markers) :
    r.resume (ρ := ρ) marker = rest.resume marker := by
  cases next with
  | effect => rfl
  | suspend own =>
    have other : ¬ own = marker := fun same => marked.2.1 (same ▸ inside)
    rw [Routine.resume, if_neg other]
  | call own =>
    have other : ¬ own = marker := fun same => marked.2.1 (same ▸ inside)
    rw [Routine.resume, if_neg other]

theorem Stopped.inside {r : Routine ε τ} {saved : SavedFrame} {frames : List SavedFrame}
    {events : List (Event ε)} {value : Value} (stopped : Stopped r saved frames events value) :
    saved.marker ∈ r.markers := by
  induction stopped with
  | suspend => exact List.mem_cons_self
  | call => exact List.mem_cons_self
  | later next _ ih => exact next.markers ih

theorem WellMarked.legal {r : Routine ε τ} (marked : r.WellMarked) {marker : UInt32}
    (inside : marker ∈ r.markers) : marker ≠ freshMarker ∧ marker ≠ pauseMarker := by
  induction r with
  | finish => simp [markers] at inside
  | effect _ _ rest ih => exact ih marked inside
  | suspend _ _ rest ih =>
    rcases List.mem_cons.mp inside with rfl | inside
    · exact marked.1
    · exact ih marked.2.2 inside
  | call _ _ _ _ rest _ ih =>
    rcases List.mem_cons.mp inside with rfl | inside
    · exact marked.1
    · exact ih marked.2.2.2 inside

end Routine

namespace Context

def reached (cx : Context ρ ε) (frames : FrameStack ρ) (reason : Option WaitReason)
    (effects : List ε) : Context ρ ε :=
  { cx with
    frames
    reason
    world := { cx.world with log := cx.world.log ++ effects.map (Prod.mk cx.task) } }

theorem reached_reached (cx : Context ρ ε) (mid frames : FrameStack ρ)
    (before reason : Option WaitReason) (effects later : List ε) :
    (cx.reached mid before effects).reached frames reason later =
      cx.reached frames reason (effects ++ later) := by
  simp [reached]

end Context

/-- How a frame over the slots `below` ends when these events and this value are to come. -/
inductive Proceeds (r : Routine ε τ) (below : List (Option (Slot ρ))) (cx : Context ρ ε) :
    List (Event ε) → Value → Ending Value × Context ρ ε → Prop where
  | returns (effects : List ε) (value : Value) (above : List (Option (Slot ρ)))
      (marker : UInt32) (reason : Option WaitReason) (blank : Blank above)
      (kept : reason = cx.reason ∨ reason = none) :
      Proceeds r below cx (effects.map .effect) value
        (.returned value, cx.reached (wound below none above marker false) reason effects)
  | suspends (effects : List ε) (reason : WaitReason) (events : List (Event ε)) (value : Value)
      (saved : SavedFrame) (frames : List SavedFrame) (spare : List (Option (Slot ρ)))
      (marker : UInt32) (blank : Blank spare)
      (stopped : Routine.Stopped r saved frames events value) :
      Proceeds r below cx (effects.map .effect ++ .wait reason :: events) value
        (.unwound .pause, cx.reached (wound below saved.slot
          (frames.map SavedFrame.slot ++ some Slot.pause :: spare) marker true)
          (some reason) effects)

namespace Proceeds

variable {r rest : Routine ε τ} {below : List (Option (Slot ρ))} {cx : Context ρ ε}
  {events : List (Event ε)} {value : Value} {ran : Ending Value × Context ρ ε}

theorem later (next : Routine.Next r rest) (plays : Proceeds rest below cx events value ran) :
    Proceeds r below cx events value ran := by
  cases plays with
  | returns effects value above marker reason blank kept =>
    exact .returns effects value above marker reason blank kept
  | suspends effects reason events value saved frames spare marker blank stopped =>
    have stopped' := Routine.Stopped.later next stopped
    exact .suspends effects reason events value saved frames spare marker blank stopped'

theorem after {frames : FrameStack ρ} {reason : Option WaitReason} (effects : List ε)
    (kept : reason = cx.reason ∨ reason = none)
    (plays : Proceeds r below (cx.reached frames reason effects) events value ran) :
    Proceeds r below cx (effects.map .effect ++ events) value ran := by
  cases plays with
  | returns later value above marker last blank unset =>
    rw [Context.reached_reached, ← List.map_append]
    refine .returns (effects ++ later) value above marker last blank ?_
    rcases unset with rfl | rfl
    · exact kept
    · exact .inr rfl
  | suspends later waiting events value saved frames spare marker blank stopped =>
    rw [Context.reached_reached, ← List.append_assoc, ← List.map_append]
    exact .suspends (effects ++ later) waiting events value saved frames spare marker blank stopped

end Proceeds

section

variable {execute : Context ρ ε → Ending Unit × Context ρ ε} {below : List (Option (Slot ρ))}
  {own : Option (Slot ρ)} {above spare : List (Option (Slot ρ))} {marker : UInt32}
  {cx : Context ρ ε}

theorem Context.pause_fresh (frames : cx.frames = wound below own above marker false)
    (blank : Blank above) (reason : WaitReason) :
    cx.pause reason = (.returned (.paused ⟨own.isSome⟩), cx.reached
      (wound below own (some .pause :: above.tail) (shown own) true) (some reason) []) := by
  have entered : cx.frames.enter = wound (below ++ [own]) none above.tail freshMarker false :=
    (congrArg FrameStack.enter frames).trans (enter_wound_blank _ _ _ _ _ blank)
  have live : cx.frames.pausing = false := by rw [frames, pausing_wound]
  simp only [Context.pause, live, Bool.false_eq_true, ↓reduceIte, entered, rewinding, marker_wound,
    togglePause_wound_none, Except.toOption, Option.getD_some, leave_wound_pausing, ne_eq,
    not_true_eq_false, decide_false]
  simp [Context.reached]

theorem Context.pause_sentinel
    (frames : cx.frames = wound below own (some .pause :: spare) marker false)
    (reason : WaitReason) :
    cx.pause reason =
      ((match cx.cancelRequest with
        | some request => .unwound (.cancelled request)
        | none => .returned (.returned ())),
        cx.reached (wound below none (none :: spare) freshMarker false) none []) := by
  have entered : cx.frames.enter =
      wound (below ++ [own]) (some .pause) spare pauseMarker false := by
    rw [frames, enter_wound]
    rfl
  have live : cx.frames.pausing = false := by rw [frames, pausing_wound]
  have marked : pauseMarker ≠ freshMarker := by decide
  simp only [Context.pause, live, Bool.false_eq_true, ↓reduceIte, entered, rewinding, marker_wound,
    togglePause_wound_pause, Except.toOption, Option.getD_some, leave_wound_live, ne_eq, marked,
    not_false_eq_true, decide_true, checkpoint]
  cases cx.cancelRequest <;> simp [Context.reached]

theorem Context.pause_rewound
    (frames : cx.frames = wound below own (some .pause :: spare) marker false)
    (uncancelled : cx.cancelRequest = none) (reason : WaitReason) :
    cx.pause reason = (.returned (.returned ()), cx.reached
      (wound below none (none :: spare) freshMarker false) none []) := by
  rw [pause_sentinel frames, uncancelled]

theorem Context.pause_cancelled {request : CancelReason}
    (frames : cx.frames = wound below own (some .pause :: spare) marker false)
    (cancelled : cx.cancelRequest = some request) (reason : WaitReason) :
    cx.pause reason = (.unwound (.cancelled request), cx.reached
      (wound below none (none :: spare) freshMarker false) none []) := by
  rw [pause_sentinel frames, cancelled]

theorem Context.call_returned {body : Context ρ ε → Ending α × Context ρ ε} {last : Context ρ ε}
    {callee : Option (Slot ρ)} {value : α}
    (ran : body { cx with frames := cx.frames.enter } = (.returned value, last))
    (left : last.frames = wound (below ++ [own]) callee above marker false) :
    call body cx = (.returned (.returned value),
      { last with frames := wound below none (none :: above) freshMarker false }) := by
  simp only [call, ran, left, leave_wound_live, answer, Bool.false_eq_true, ↓reduceIte]

theorem Context.call_unwound {body : Context ρ ε → Ending α × Context ρ ε} {last : Context ρ ε}
    {callee : Option (Slot ρ)} {unwind : Unwind} (passes : unwind ≠ .pause)
    (ran : body { cx with frames := cx.frames.enter } = (.unwound unwind, last))
    (left : last.frames = wound (below ++ [own]) callee above marker false) :
    call body cx = (.unwound unwind,
      { last with frames := wound below none (none :: above) freshMarker false }) := by
  cases unwind with
  | pause => exact absurd rfl passes
  | exit | cancelled | failed => simp only [call, ran, left, leave_wound_live, answer]

theorem Context.call_suspended {body : Context ρ ε → Ending α × Context ρ ε} {last : Context ρ ε}
    {callee : Option (Slot ρ)}
    (ran : body { cx with frames := cx.frames.enter } = (.unwound .pause, last))
    (left : last.frames = wound (below ++ [own]) callee above marker true) :
    call body cx = (.returned (.paused ⟨own.isSome⟩),
      { last with frames := wound below own (callee :: above) (shown own) true }) := by
  simp only [call, ran, left, leave_wound_pausing, answer, ↓reduceIte]

theorem Script.exec_passOn (saved : SavedFrame) (legal : saved.Legal)
    (held : own = none ∨ own = saved.slot)
    (frames : cx.frames = wound below own above marker true) :
    (passOn ⟨own.isSome⟩ saved.marker saved.locals .done).exec execute cx =
      (.unwound .pause, { cx with frames := wound below saved.slot above marker true }) := by
  rcases held with rfl | rfl
  · simp only [passOn, exec, Op.perform, Context.suspend, Option.isSome_none, Bool.false_eq_true,
      ↓reduceIte, frames, capture_wound _ _ _ _ _ legal, Ending.leave, SavedFrame.slot]
  · rw [← frames]
    simp only [passOn, exec, Op.perform, Context.suspend, SavedFrame.slot, Option.isSome_some,
      ↓reduceIte, Ending.leave]

theorem Script.exec_enterMarked_fresh (fresh : cx.frames.marker = freshMarker)
    (start : Script ρ ε) (resume : UInt32 → Option (Locals τ → Script ρ ε)) :
    (enterMarked start resume).exec execute cx = start.exec execute cx := by
  simp only [enterMarked, exec, Op.perform, Context.view, fresh, ↓reduceIte]

theorem Context.restore_saved {saved : SavedFrame} (fits : saved.locals.type = τ)
    (frames : cx.frames = wound below saved.slot above marker false) :
    cx.restore τ = .ok saved.locals := by
  have reads : (Expectation.value (ρ := ρ) τ).read (.value saved.locals) = some saved.locals := by
    simp [Expectation.value, Value.as?, fits]
  rw [Context.restore, frames, SavedFrame.slot, state_wound_saved _ _ _ _ _ _ _ reads]
  rfl

theorem Script.exec_enterMarked_rewound (execute : Context ρ ε → Ending Unit × Context ρ ε)
    {saved : SavedFrame} (legal : saved.Legal) {locals : Locals τ}
    (held : saved.locals = locals.val)
    (frames : cx.frames = wound below saved.slot above saved.marker false)
    (start : Script ρ ε) {resume : UInt32 → Option (Locals τ → Script ρ ε)}
    {again : Locals τ → Script ρ ε} (resumes : resume saved.marker = some again) :
    (enterMarked start resume).exec execute cx = (again locals).exec execute cx := by
  obtain ⟨value, fits⟩ := locals
  obtain ⟨own, captured⟩ := saved
  obtain rfl : captured = value := held
  have marked : cx.frames.marker = own := by rw [frames, marker_wound]
  have restored : cx.restore τ = .ok captured := Context.restore_saved fits frames
  simp only [enterMarked, exec, Op.perform, Context.view, marked, legal.1, ↓reduceIte, resumes,
    restored, fits, ↓reduceDIte]

theorem call_proceeds {σ : ValueType} {callee : Routine ε σ} {rest : Routine ε τ} {own : UInt32}
    {locals : Locals τ} (legal : SavedFrame.Legal ⟨own, locals.val⟩) (args : Locals τ → Locals σ)
    (absorb : Locals τ → Value → Locals τ) {slot : Option (Slot ρ)}
    (held : slot = none ∨ slot = SavedFrame.slot ⟨own, locals.val⟩)
    {body : Context ρ ε → Ending Value × Context ρ ε} {events : List (Event ε)} {value : Value}
    (plays : Proceeds callee (below ++ [slot]) { cx with frames := cx.frames.enter } events value
      (body { cx with frames := cx.frames.enter }))
    (goes : ∀ (above : List (Option (Slot ρ))) (reason : Option WaitReason) (effects : List ε),
      Blank above →
      let cx := cx.reached (wound below none above freshMarker false) reason effects
      Proceeds rest below cx (rest.direct (absorb locals value)).1
        (rest.direct (absorb locals value)).2
        ((rest.code (absorb locals value)).exec execute cx)) :
    Proceeds (.call own callee args absorb rest) below cx
      (events ++ (rest.direct (absorb locals value)).1) (rest.direct (absorb locals value)).2
      (Script.exec execute (Script.goOn own locals.val
        (fun value => rest.code (absorb locals value)) (Context.call body cx).1)
        (Context.call body cx).2) := by
  generalize ran : body { cx with frames := cx.frames.enter } = outcome at plays
  cases plays with
  | returns effects value above marker reason blank kept =>
    have returned : Context.call body cx = (_, cx.reached _ reason effects) :=
      Context.call_returned ran rfl
    rw [returned]
    have blank' : Blank (none :: above) := blank_cons_iff.mpr ⟨rfl, blank⟩
    exact .later (.call _ _ _ _ _) (.after effects kept (goes _ reason effects blank'))
  | suspends effects reason events value inner frames spare marker blank stopped =>
    have suspended : Context.call body cx = (_, cx.reached _ (some reason) effects) :=
      Context.call_suspended ran rfl
    have passed : (Script.passOn ⟨slot.isSome⟩ own locals.val .done).exec execute
        (cx.reached (wound below slot (inner.slot :: (frames.map SavedFrame.slot ++
          some Slot.pause :: spare)) (shown slot) true) (some reason) effects) = _ :=
      Script.exec_passOn ⟨own, locals.val⟩ legal held rfl
    rw [suspended, Script.goOn, passed, List.append_assoc, List.cons_append]
    exact .suspends effects reason _ _ ⟨own, locals.val⟩ (inner :: frames) spare _ blank
      (.call own args absorb rest locals stopped)

theorem code_proceeds (execute : Context ρ ε → Ending Unit × Context ρ ε) {r : Routine ε τ}
    (marked : r.WellMarked) (locals : Locals τ)
    (frames : cx.frames = wound below none above marker false) (blank : Blank above) :
    Proceeds r below cx (r.direct locals).1 (r.direct locals).2
      ((r.code locals).exec execute cx) := by
  induction r generalizing below above marker cx with
  | finish result =>
    have finished : ((Routine.finish result).code locals).exec execute cx =
        (.returned (result locals),
          cx.reached (wound below none above marker false) cx.reason []) := by
      rw [Routine.code, Script.exec, ← frames]
      simp [Context.reached]
    rw [finished]
    exact .returns [] _ above marker _ blank (.inl rfl)
  | effect entry change rest ih =>
    have emitted : Proceeds rest below (cx.reached cx.frames cx.reason [entry locals]) _ _ _ :=
      ih marked (change locals) frames blank
    exact .later (.effect _ _ _) (.after [entry locals] (.inl rfl) emitted)
  | suspend own reason rest ih =>
    have paused := Context.pause_fresh frames blank (reason locals)
    have passed : (Script.passOn ⟨(none : Option (Slot ρ)).isSome⟩ own locals.val .done).exec
        execute (cx.reached (wound below none (some .pause :: above.tail)
          (shown (ρ := ρ) none) true) (some (reason locals)) []) = _ :=
      Script.exec_passOn ⟨own, locals.val⟩ marked.1 (.inl rfl) rfl
    rw [Routine.code, Script.exec, Op.perform, paused, Script.goOn, passed]
    exact .suspends [] (reason locals) _ _ ⟨own, locals.val⟩ [] above.tail _ (blank_tail blank)
      (.suspend own reason rest locals)
  | call own callee args absorb rest calleeIh ih =>
    obtain ⟨legal, -, callee_marked, rest_marked⟩ := marked
    have entered : { cx with frames := cx.frames.enter }.frames =
        wound (below ++ [none]) none above.tail freshMarker false :=
      (congrArg FrameStack.enter frames).trans (enter_wound_blank _ _ _ _ _ blank)
    -- The callee shows the fresh marker, so it starts at its first step with these arguments.
    have callee_proceeds := calleeIh callee_marked (args locals) entered (blank_tail blank)
    rw [← Script.exec_enterMarked_fresh (by rw [entered, marker_wound]) _ callee.resume]
      at callee_proceeds
    exact call_proceeds legal args absorb (.inl rfl) callee_proceeds
      fun _ _ _ blank => ih rest_marked _ rfl blank

/-- A rewound frame: the step that its marker names, issued again with its locals, plays what was
still to come. -/
theorem resume_proceeds (execute : Context ρ ε → Ending Unit × Context ρ ε) {r : Routine ε τ}
    {saved : SavedFrame} {inner : List SavedFrame} {events : List (Event ε)} {value : Value}
    (stopped : Routine.Stopped r saved inner events value) (marked : r.WellMarked) :
    ∃ (again : Locals τ → Script ρ ε) (locals : Locals τ),
      r.resume saved.marker = some again ∧ saved.locals = locals.val ∧
      ∀ {below spare : List (Option (Slot ρ))} {marker : UInt32} {cx : Context ρ ε},
        cx.frames = wound below saved.slot
          (inner.map SavedFrame.slot ++ some Slot.pause :: spare) marker false →
        Blank spare → cx.cancelRequest = none →
        Proceeds r below cx events value ((again locals).exec execute cx) := by
  induction stopped with
  | suspend own reason rest locals =>
    refine ⟨_, locals, by rw [Routine.resume, if_pos rfl], rfl, ?_⟩
    intro below spare marker cx frames blank uncancelled
    have paused := Context.pause_rewound frames uncancelled (reason locals)
    rw [Script.exec, Op.perform, paused, Script.goOn]
    have blank' : Blank (none :: spare) := blank_cons_iff.mpr ⟨rfl, blank⟩
    exact .later (.suspend _ _ _)
      (.after [] (.inr rfl) (code_proceeds execute marked.2.2 locals rfl blank'))
  | @call _ _ own callee args absorb rest locals first deeper events value stopped ih =>
    obtain ⟨legal, -, callee_marked, rest_marked⟩ := marked
    obtain ⟨again, inside, resumes, held, plays⟩ := ih callee_marked
    refine ⟨_, locals, by rw [Routine.resume, if_pos rfl], rfl, ?_⟩
    intro below spare marker cx frames blank uncancelled
    have entered : { cx with frames := cx.frames.enter }.frames =
        wound (below ++ [SavedFrame.slot ⟨own, locals.val⟩]) first.slot
          (deeper.map SavedFrame.slot ++ some Slot.pause :: spare) first.marker false :=
      (congrArg FrameStack.enter frames).trans (SavedFrame.enter_saved _ _ _ _ _ _)
    -- The callee shows the marker that it saved, so it goes on there and not with the arguments.
    have callee_proceeds := plays entered blank uncancelled
    have callee_legal := callee_marked.legal stopped.inside
    rw [← Script.exec_enterMarked_rewound execute callee_legal held entered _ resumes]
      at callee_proceeds
    exact call_proceeds legal args absorb (.inr rfl) callee_proceeds
      fun _ _ _ blank => code_proceeds execute rest_marked _ rfl blank
  | later next stopped ih =>
    obtain ⟨again, locals, resumes, held, plays⟩ := ih (next.wellMarked marked)
    refine ⟨again, locals, ?_, held, fun frames blank uncancelled =>
      .later next (plays frames blank uncancelled)⟩
    -- The saved marker belongs to a later step, and the first one does not answer to it.
    rw [next.resume marked stopped.inside, resumes]

end

end ResumableTasks
