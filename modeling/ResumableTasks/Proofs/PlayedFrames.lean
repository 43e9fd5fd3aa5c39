import ResumableTasks.Proofs.ScriptTrace
import ResumableTasks.Proofs.WovenRun
import ResumableTasks.Script.Method
/-!
Frames that play a direct execution up to the next suspension or to its end: what the code of a
frame comes to, what its caller makes of it, and what an invocation adds. The frame of an invocation
has no locals but the object itself: it gives the object back when it is entered again, and for the
time of the run its slot is empty while the slots on both sides are held.
-/
namespace ResumableTasks

open FrameStack Slot

variable {σ ω ε ρ α : Type}

namespace Occurrence

def effect? : Occurrence ρ σ ε → Option ε
  | .effect entry => some entry
  | _ => none

def invoked? : Occurrence ρ σ ε → Option ρ
  | .invoked object => some object
  | _ => none

def isWait : Occurrence ρ σ ε → Bool
  | .wait .. => true
  | _ => false

def Quiet (occurrences : List (Occurrence ρ σ ε)) : Prop := ∀ o ∈ occurrences, o.isWait = false

variable {quiet : List (Occurrence ρ σ ε)}

theorem Quiet.append (silent : Quiet quiet) {later : List (Occurrence ρ σ ε)}
    (still : Quiet later) : Quiet (quiet ++ later) := by
  intro o member
  rcases List.mem_append.mp member with first | second
  · exact silent o first
  · exact still o second

theorem Quiet.map_eq (silent : Quiet quiet) {f : Occurrence ρ σ ε → Occurrence ρ σ ε}
    (fixed : ∀ o, o.isWait = false → f o = o) : quiet.map f = quiet := by
  rw [List.map_congr_left fun o member => fixed o (silent o member), List.map_id']

theorem inFrame_quiet (slot : Slot ρ) (o : Occurrence ρ σ ε) (still : o.isWait = false) :
    o.inFrame slot = o := by
  cases o with
  | effect | invoked => rfl
  | wait => cases still

theorem within_quiet (object : σ → ρ) (outer : σ) (o : Occurrence ρ σ ε)
    (still : o.isWait = false) : o.within object outer = o := by
  cases o with
  | effect | invoked => rfl
  | wait => cases still

end Occurrence

open Occurrence

namespace Play

theorem before_before (first second : List (Occurrence ρ σ ε)) (play : Play ρ σ ε) :
    (play.before second).before first = play.before (first ++ second) := by
  simp only [before, List.append_assoc]

theorem before_andThen (first : List (Occurrence ρ σ ε)) (play : Play ρ σ ε)
    (next : Value → σ → Play ρ σ ε) :
    (play.before first).andThen next = (play.andThen next).before first := by
  obtain ⟨occurrences, close, state⟩ := play
  cases close with
  | returned value => exact (before_before first occurrences (next value state)).symm
  | left way => rfl

theorem before_inFrame (first : List (Occurrence ρ σ ε)) (slot : Slot ρ) (play : Play ρ σ ε) :
    (play.before first).inFrame slot = (play.inFrame slot).before (first.map (.inFrame slot)) := by
  simp only [inFrame, before, List.map_append]

theorem before_within (first : List (Occurrence ρ σ ε)) (object : σ → ρ) (outer : σ)
    (play : Play ρ σ ε) : (play.before first).within object outer =
      (play.within object outer).before (first.map (.within object outer)) := by
  simp only [within, before, List.map_append]

end Play

namespace Context

def played (cx : Context ρ ε) (object : ρ) (frames : FrameStack ρ) (reason : Option WaitReason)
    (effects : List ε) : Context ρ ε :=
  { cx.reached frames reason effects with object }

theorem reached_eq_played (cx : Context ρ ε) (frames : FrameStack ρ) (reason : Option WaitReason)
    (effects : List ε) :
    cx.reached frames reason effects = cx.played cx.object frames reason effects := rfl

theorem played_played (cx : Context ρ ε) (mid object : ρ) (first frames : FrameStack ρ)
    (before reason : Option WaitReason) (effects later : List ε) :
    (cx.played mid first before effects).played object frames reason later =
      cx.played object frames reason (effects ++ later) := by
  simp [played, reached]

end Context

namespace Leaving

def ending : Leaving → Ending α
  | .exit _ => .unwound .exit
  | .cancel request => .unwound (.cancelled request)
  | .fail error => .unwound (.failed error)
  | .panic payload => .panicked payload

def exitOp : Except Error Value → Op ρ ε
  | .ok value => .exit value
  | .error error => .errorExit error

/-- The stack, the wait reason and the acts of a frame that leaves for good. A panic goes through
without a frame being left; after an exit nothing more is done. -/
structure Leaves (way : Leaving) (below : List (Option (Slot ρ))) (frames : FrameStack ρ)
    (reason : Option WaitReason) (acts : List (Act ρ ε)) : Prop where
  live : (∀ payload, way ≠ .panic payload) →
    ∃ above marker, frames = wound below none above marker false
  exits : ∀ result, way = .exit result →
    reason = some (.done (.ofResult (result.map ExitValue.mk))) ∧
      acts.getLast? = some (.op (exitOp result))

theorem Leaves.noting {way : Leaving} {below : List (Option (Slot ρ))} {frames : FrameStack ρ}
    {reason : Option WaitReason} {acts : List (Act ρ ε)}
    (leaves : way.Leaves below frames reason acts) (first : List (Act ρ ε)) :
    way.Leaves below frames reason (first ++ acts) where
  live := leaves.live
  exits result same := by
    obtain ⟨concluded, last⟩ := leaves.exits result same
    exact ⟨concluded, by rw [List.getLast?_append, last, Option.some_or]⟩

end Leaving

/-- Occurrences up to the next suspension, with the acts of code that plays them. Of the objects
that are executed the first ones are `resumed`, and the others are those that the play invokes. -/
structure Opening (resumed : List ρ) (quiet : List (Occurrence ρ σ ε))
    (acts : List (Act ρ ε)) : Prop where
  silent : Quiet quiet
  executed : acts.filterMap Act.executed? = resumed ++ quiet.filterMap invoked?

namespace Opening

variable {resumed objects : List ρ} {quiet later : List (Occurrence ρ σ ε)}
  {first acts : List (Act ρ ε)}

theorem append (opening : Opening resumed quiet first) (rest : Opening [] later acts) :
    Opening resumed (quiet ++ later) (first ++ acts) where
  silent := opening.silent.append rest.silent
  executed := by
    rw [List.filterMap_append, opening.executed, rest.executed, List.nil_append,
      List.filterMap_append, List.append_assoc]

theorem noting (executed : first.filterMap Act.executed? = objects)
    (opening : Opening resumed quiet acts) :
    Opening (objects ++ resumed) quiet (first ++ acts) where
  silent := opening.silent
  executed := by rw [List.filterMap_append, executed, opening.executed, List.append_assoc]

theorem still (executed : acts.filterMap Act.executed? = []) : Opening (σ := σ) [] [] acts where
  silent o member := by cases member
  executed := executed

theorem invoked {target : ρ} (opening : Opening [target] quiet acts) :
    Opening [] (.invoked target :: quiet) acts where
  silent := by
    intro o member
    rcases List.mem_cons.mp member with rfl | later
    · rfl
    · exact opening.silent o later
  executed := opening.executed

end Opening

/-- How code over the slots `below` ends whose direct execution is this play. When it suspends, the
slots that it leaves stand for the rest of the play. -/
inductive Plays (give : Value → α) (stands : List (Slot ρ) → σ → Play ρ σ ε → Prop)
    (object : σ → ρ) (below : List (Option (Slot ρ))) (cx : Context ρ ε) (resumed : List ρ) :
    Play ρ σ ε → List (Act ρ ε) → Ending α × Context ρ ε → Prop where
  | returns {quiet : List (Occurrence ρ σ ε)} {acts : List (Act ρ ε)}
      (opening : Opening resumed quiet acts) (value : Value) (state : σ)
      (above : List (Option (Slot ρ))) (marker : UInt32) (reason : Option WaitReason)
      (blank : Blank above) (kept : reason = cx.reason ∨ reason = none) :
      Plays give stands object below cx resumed ⟨quiet, .returned value, state⟩ acts
        (.returned (give value), cx.played (object state) (wound below none above marker false)
          reason (quiet.filterMap effect?))
  | leaves {quiet : List (Occurrence ρ σ ε)} {acts : List (Act ρ ε)}
      (opening : Opening resumed quiet acts) (way : Leaving) (state : σ) (frames : FrameStack ρ)
      (reason : Option WaitReason) (left : way.Leaves below frames reason acts) :
      Plays give stands object below cx resumed ⟨quiet, .left way, state⟩ acts
        (way.ending, cx.played (object state) frames reason (quiet.filterMap effect?))
  | suspends {quiet : List (Occurrence ρ σ ε)} {acts : List (Act ρ ε)}
      (opening : Opening resumed quiet acts) (reason : WaitReason) (state : σ) (own : Slot ρ)
      (inner : List (Slot ρ)) (spare : List (Option (Slot ρ))) (marker : UInt32)
      (blank : Blank spare) {later : Play ρ σ ε} (stood : stands (own :: inner) state later) :
      Plays give stands object below cx resumed
        (later.before (quiet ++ [.wait reason state (own :: inner)])) acts
        (.unwound .pause, cx.played (object state)
          (wound below (some own) (inner.map some ++ some .pause :: spare) marker true)
          (some reason) (quiet.filterMap effect?))

/-- The same, seen by the caller once the frame is left; its own slot is dropped unless a suspension
is under way. -/
inductive Answers (give : Value → α) (stands : List (Slot ρ) → σ → Play ρ σ ε → Prop)
    (object : σ → ρ) (below : List (Option (Slot ρ))) (own : Option (Slot ρ)) (cx : Context ρ ε)
    (resumed : List ρ) :
    Play ρ σ ε → List (Act ρ ε) → Ending (Called α) × Context ρ ε → Prop where
  | returns {quiet : List (Occurrence ρ σ ε)} {acts : List (Act ρ ε)}
      (opening : Opening resumed quiet acts) (value : Value) (state : σ)
      (above : List (Option (Slot ρ))) (reason : Option WaitReason) (blank : Blank above)
      (kept : reason = cx.reason ∨ reason = none) :
      Answers give stands object below own cx resumed ⟨quiet, .returned value, state⟩ acts
        (.returned (.returned (give value)), cx.played (object state)
          (wound below none above freshMarker false) reason (quiet.filterMap effect?))
  | leaves {quiet : List (Occurrence ρ σ ε)} {acts : List (Act ρ ε)}
      (opening : Opening resumed quiet acts) (way : Leaving) (state : σ) (frames : FrameStack ρ)
      (reason : Option WaitReason) (left : way.Leaves below frames reason acts) :
      Answers give stands object below own cx resumed ⟨quiet, .left way, state⟩ acts
        (way.ending, cx.played (object state) frames reason (quiet.filterMap effect?))
  | suspends {quiet : List (Occurrence ρ σ ε)} {acts : List (Act ρ ε)}
      (opening : Opening resumed quiet acts) (reason : WaitReason) (state : σ)
      (inner : List (Slot ρ)) (spare : List (Option (Slot ρ))) (blank : Blank spare)
      {later : Play ρ σ ε} (stood : stands inner state later) :
      Answers give stands object below own cx resumed
        (later.before (quiet ++ [.wait reason state inner])) acts
        (.returned (.paused ⟨own.isSome⟩), cx.played (object state)
          (wound below own (inner.map some ++ some .pause :: spare) (shown own) true)
          (some reason) (quiet.filterMap effect?))

section

variable {give : Value → α} {stands : List (Slot ρ) → σ → Play ρ σ ε → Prop} {object : σ → ρ}
  {below above : List (Option (Slot ρ))} {own : Option (Slot ρ)} {cx : Context ρ ε}
  {resumed : List ρ} {play : Play ρ σ ε} {acts : List (Act ρ ε)} {marker : UInt32}
  {execute : Context ρ ε → Ending Unit × Context ρ ε} {inner : Context ρ ε → List (Act ρ ε)}

namespace Plays

variable {ran : Ending α × Context ρ ε} {first : List (Act ρ ε)}

theorem after {quiet : List (Occurrence ρ σ ε)} {state : σ} {frames : FrameStack ρ}
    {reason : Option WaitReason} (opening : Opening resumed quiet first)
    (kept : reason = cx.reason ∨ reason = none)
    (plays : Plays give stands object below
      (cx.played (object state) frames reason (quiet.filterMap effect?)) [] play acts ran) :
    Plays give stands object below cx resumed (play.before quiet) (first ++ acts) ran := by
  cases plays with
  | returns rest value state above marker last blank unset =>
    rw [Context.played_played, ← List.filterMap_append]
    refine .returns (opening.append rest) value state above marker last blank ?_
    rcases unset with rfl | rfl
    · exact kept
    · exact .inr rfl
  | leaves rest way state frames reason left =>
    rw [Context.played_played, ← List.filterMap_append]
    exact .leaves (opening.append rest) way state frames reason (left.noting first)
  | suspends rest waiting state own inner spare marker blank stood =>
    rw [Context.played_played, ← List.filterMap_append, Play.before_before, ← List.append_assoc]
    exact .suspends (opening.append rest) waiting state own inner spare marker blank stood

theorem noting (first : List (Act ρ ε)) {objects : List ρ}
    (executed : first.filterMap Act.executed? = objects)
    (plays : Plays give stands object below cx resumed play acts ran) :
    Plays give stands object below cx (objects ++ resumed) play (first ++ acts) ran := by
  cases plays with
  | returns rest value state above marker reason blank kept =>
    exact .returns (rest.noting executed) value state above marker reason blank kept
  | leaves rest way state frames reason left =>
    exact .leaves (rest.noting executed) way state frames reason (left.noting first)
  | suspends rest waiting state own inner spare marker blank stood =>
    exact .suspends (rest.noting executed) waiting state own inner spare marker blank stood

theorem invoked {target : ρ} (plays : Plays give stands object below cx [target] play acts ran) :
    Plays give stands object below cx [] (play.before [.invoked target]) acts ran := by
  cases plays with
  | returns opening value state above marker reason blank kept =>
    exact .returns opening.invoked value state above marker reason blank kept
  | leaves opening way state frames reason left =>
    exact .leaves opening.invoked way state frames reason left
  | suspends opening waiting state own inner spare marker blank stood =>
    rw [Play.before_before, ← List.append_assoc]
    exact .suspends opening.invoked waiting state own inner spare marker blank stood

end Plays

theorem call_answers {body : Context ρ ε → Ending α × Context ρ ε}
    (plays : Plays give stands object (below ++ [own]) { cx with frames := cx.frames.enter } resumed
      play acts (body { cx with frames := cx.frames.enter })) :
    Answers give stands object below own cx resumed play acts (Context.call body cx) := by
  generalize ran : body { cx with frames := cx.frames.enter } = outcome at plays
  cases plays with
  | returns opening value state above marker reason blank kept =>
    have returned : Context.call body cx = (_, cx.played (object state) _ reason _) :=
      Context.call_returned ran rfl
    rw [returned]
    exact .returns opening value state _ reason (blank_cons_iff.mpr ⟨rfl, blank⟩) kept
  | @leaves quiet _ opening way state frames reason left =>
    cases way with
    | panic payload =>
      have panicked : Context.call body cx = (.panicked payload, cx.played (object state) frames
          reason (quiet.filterMap effect?)) := by
        simp only [Context.call, ran, Leaving.ending]
        rfl
      rw [panicked]
      exact .leaves opening (.panic payload) state frames reason
        ⟨fun settled => absurd rfl (settled payload), left.exits⟩
    | exit | cancel | fail =>
      obtain ⟨above, marker, rfl⟩ := left.live (by simp)
      have unwound : Context.call body cx = (.unwound _, cx.played (object state) _ reason _) :=
        Context.call_unwound (by simp) ran rfl
      rw [unwound]
      exact .leaves opening _ state _ reason ⟨fun _ => ⟨_, _, rfl⟩, left.exits⟩
  | suspends opening reason state slot inner spare marker blank stood =>
    have suspended : Context.call body cx = (_, cx.played (object state) _ (some reason) _) :=
      Context.call_suspended ran rfl
    rw [suspended]
    exact .suspends opening reason state (slot :: inner) spare blank stood

theorem goOn_plays (saved : SavedFrame) (legal : saved.Legal)
    (held : own = none ∨ own = saved.slot) {called : Ending (Called α) × Context ρ ε}
    (answers : Answers give stands object below own cx resumed play acts called)
    (rest : Value → σ → Play ρ σ ε) {stands' : List (Slot ρ) → σ → Play ρ σ ε → Prop}
    {next : α → Script ρ ε}
    (stops : ∀ frames state later, stands frames state later →
      later.close = play.close → later.state = play.state →
      stands' (.saved saved.marker (.value saved.locals) :: frames) state
        ((later.inFrame (.saved saved.marker (.value saved.locals))).andThen rest))
    (goes : ∀ value (above : List (Option (Slot ρ))) (reason : Option WaitReason)
      (effects : List ε), play.close = .returned value → Blank above →
      let frames := wound below none above freshMarker false
      let cx := cx.played (object play.state) frames reason effects
      Plays id stands' object below cx [] (rest value play.state)
        ((next (give value)).actsBy execute inner cx) ((next (give value)).exec execute cx)) :
    Plays id stands' object below cx resumed
      ((play.inFrame (.saved saved.marker (.value saved.locals))).andThen rest)
      (acts ++ (Script.goOn saved.marker saved.locals next called.1).actsBy execute inner called.2)
      ((Script.goOn saved.marker saved.locals next called.1).exec execute called.2) := by
  cases answers with
  | @returns quiet _ opening value state above reason blank kept =>
    have unchanged := opening.silent.map_eq
      (inFrame_quiet (.saved saved.marker (.value saved.locals)))
    simp only [Play.inFrame, unchanged, Play.andThen]
    exact .after opening kept (goes value above reason _ rfl blank)
  | @leaves quiet _ opening way state frames reason left =>
    have unchanged := opening.silent.map_eq
      (inFrame_quiet (.saved saved.marker (.value saved.locals)))
    simp only [Play.inFrame, unchanged, Play.andThen]
    -- Whoever called passes this on, and does nothing more.
    have passed : (Script.goOn saved.marker saved.locals next way.ending).actsBy execute inner
          (cx.played (object state) frames reason (quiet.filterMap effect?)) = [] ∧
        (Script.goOn saved.marker saved.locals next way.ending).exec execute
          (cx.played (object state) frames reason (quiet.filterMap effect?)) =
          (way.ending, cx.played (object state) frames reason (quiet.filterMap effect?)) := by
      cases way <;> exact ⟨rfl, rfl⟩
    rw [passed.1, passed.2, List.append_nil]
    exact .leaves opening way state frames reason left
  | @suspends quiet _ opening reason state frames spare blank later stood =>
    have unchanged := opening.silent.map_eq
      (inFrame_quiet (.saved saved.marker (.value saved.locals)))
    have captured : (Script.passOn ⟨own.isSome⟩ saved.marker saved.locals .done).exec execute
        (cx.played (object state) (wound below own (frames.map some ++ some .pause :: spare)
          (shown own) true) (some reason) (quiet.filterMap effect?)) =
        (.unwound .pause, cx.played (object state)
          (wound below saved.slot (frames.map some ++ some .pause :: spare) (shown own) true)
          (some reason) (quiet.filterMap effect?)) :=
      Script.exec_passOn saved legal held rfl
    rw [Play.before_inFrame, Play.before_andThen, List.map_append, unchanged, Script.goOn, captured]
    refine .suspends ⟨opening.silent, ?_⟩ reason state _ frames spare _ blank
      (stops frames state later stood rfl rfl)
    rw [List.filterMap_append, opening.executed]
    exact List.append_nil _

def KeptIn (stands : List (Slot ρ) → σ → Play ρ σ ε → Prop) (inside : σ → ρ) (outer : σ)
    (frames : List (Slot ρ)) (state : σ) (play : Play ρ σ ε) : Prop :=
  state = outer ∧ ∃ inner kept later, frames = .saved 1 (.routine (inside kept)) :: inner ∧
    stands inner kept later ∧ play = later.within inside outer

/-- The frame of an invocation, fresh or rewound: its target is the object given or the one kept,
and from here on its slot is empty. -/
theorem invokeFrame_plays {give : Value → Unit} {inside : σ → ρ} {outer : σ} {given target : ρ}
    (found : (if cx.frames.rewinding = true then cx.frames.take .routine
      else .ok (given, cx.frames)) = .ok (target, wound below none above marker false))
    (holds : cx.object = object outer)
    (answers :
      let entered := { cx with frames := wound below none above marker false, object := target }
      Answers give stands inside below none entered resumed play acts
        (Context.call execute entered)) :
    Plays give (KeptIn stands inside outer) object below cx resumed (play.within inside outer) acts
      (Context.invokeFrame execute given cx) := by
  rw [Context.invokeFrame_eq, found]
  dsimp only at answers ⊢
  generalize Context.call execute _ = called at answers ⊢
  rw [holds]
  cases answers with
  | returns opening value state above reason blank kept =>
    have unchanged := opening.silent.map_eq (within_quiet inside outer)
    simp only [Play.within, unchanged]
    exact .returns opening value outer above freshMarker reason blank kept
  | leaves opening way state frames reason left =>
    have unchanged := opening.silent.map_eq (within_quiet inside outer)
    simp only [Play.within, unchanged]
    cases way <;> exact .leaves opening _ outer frames reason left
  | @suspends quiet _ opening reason state frames spare blank later stood =>
    have unchanged := opening.silent.map_eq (within_quiet inside outer)
    have legal : (1 : UInt32) ≠ freshMarker ∧ (1 : UInt32) ≠ pauseMarker := by decide
    have captured := capture_wound below none (frames.map some ++ some .pause :: spare)
      (shown (none : Option (Slot ρ))) true legal (.routine (inside state))
    rw [Play.before_within, List.map_append, unchanged]
    simp only [Context.afterInvoked, Context.suspend, Option.isSome_none, Bool.false_eq_true,
      ↓reduceIte, Context.played, Context.reached, captured, Ending.leave]
    exact .suspends opening reason outer _ frames spare _ blank
      ⟨rfl, frames, state, later, rfl, stood, rfl⟩

theorem invoke_answers {give : Value → Unit} {inside : σ → ρ} {outer : σ} {given target : ρ}
    (found : (if cx.frames.enter.rewinding = true then cx.frames.enter.take .routine
      else .ok (given, cx.frames.enter)) =
        .ok (target, wound (below ++ [own]) none above marker false))
    (holds : cx.object = object outer)
    (plays :
      let frames := (wound (below ++ [own]) none above marker false).enter
      let entered := { cx with frames, object := target }
      Plays give stands inside (below ++ [own] ++ [none]) entered resumed play acts
        (execute entered)) :
    Answers give (KeptIn stands inside outer) object below own cx resumed
      (play.within inside outer) acts (Context.invoke execute given cx) :=
  call_answers (invokeFrame_plays found holds (call_answers plays))

theorem execute_plays (enter : ρ → Script ρ ε) {depth : Nat}
    (plays : Plays id stands object below cx resumed play
      ((enter cx.object).actsBy (Script.execute enter depth) (Script.acts enter depth) cx)
      ((enter cx.object).exec (Script.execute enter depth) cx)) :
    Plays (fun _ => ()) stands object below cx (cx.object :: resumed) play
      (Script.acts enter (depth + 1) cx) (Script.execute enter (depth + 1) cx) := by
  have executed : Plays id stands object below cx (cx.object :: resumed) play
      (Script.acts enter (depth + 1) cx) _ := plays.noting [.execute cx.object] rfl
  rw [Script.execute]
  generalize (enter cx.object).exec _ cx = ran at executed ⊢
  cases executed with
  | returns opening value state above marker reason blank kept =>
    exact .returns opening value state above marker reason blank kept
  | leaves opening way state frames reason left =>
    cases way <;> exact .leaves opening _ state frames reason left
  | suspends opening reason state own inner spare marker blank stood =>
    exact .suspends opening reason state own inner spare marker blank stood

theorem Context.played_self (cx : Context ρ ε) :
    cx.played cx.object cx.frames cx.reason [] = cx := by
  simp [played, reached]

namespace Script

theorem actsBy_call (body : Unit → Script ρ ε) (next : Ending (Called Value) → Script ρ ε) :
    (Script.call body next).actsBy execute inner cx =
      (body ()).actsBy execute inner { cx with frames := cx.frames.enter } ++
        (next (Context.call ((body ()).exec execute) cx).1).actsBy execute inner
          (Context.call ((body ()).exec execute) cx).2 := by
  simp only [actsBy, trace, Context.callTrace_silent Act.tracer (fun _ => rfl)]

theorem actsBy_invoke {given target : ρ} {frames : FrameStack ρ}
    (found : (if cx.frames.enter.rewinding = true then cx.frames.enter.take .routine
      else .ok (given, cx.frames.enter)) = .ok (target, frames))
    (next : Ending (Called Unit) → Script ρ ε) :
    (Script.invoke given next).actsBy execute inner cx =
      inner { cx with frames := frames.enter, object := target } ++
        (next (Context.invoke execute given cx).1).actsBy execute inner
          (Context.invoke execute given cx).2 := by
  simp only [actsBy, trace, Context.callTrace_silent Act.tracer (fun _ => rfl),
    Context.invokeFrameTrace, found]

end Script

end

end ResumableTasks
