import ResumableTasks.Script.Woven
/-!
Methods: the code of routine objects that have state of their own. A step has an effect, stores the
state, suspends, calls another frame of the object, invokes another object, or leaves for good. A
method has two readings. Executed directly, depth first, a suspension does nothing, and an object
that is invoked is a call that keeps its state; woven, it is a script that can be suspended and
entered again.
-/
namespace ResumableTasks

inductive Leaving where
  | exit (result : Except Error Value)
  | cancel (request : CancelReason)
  | fail (error : Error)
  | panic (payload : Value)

/-- The objects have states in `σ`; whatever else may be handed to an invocation is in `ω`. A step
that may suspend has its marker and the locals to capture, and one that enters a frame has the code
of that frame: the type of its locals, the markers that it knows, the step for each of these, and
where a fresh frame starts. An invocation that is issued again gives another object instead,
`others` in each turn of the task. -/
inductive Method (σ ω ε : Type) where
  | finish (result : Value)
  | leave (way : Leaving)
  | effect (entry : ε) (rest : Method σ ω ε)
  | store (state : σ) (rest : Method σ ω ε)
  | suspend (marker : UInt32) (locals : Value) (reason : WaitReason) (rest : Method σ ω ε)
  | call (marker : UInt32) (locals : Value) (type : ValueType) (known : UInt32 → Bool)
      (again : UInt32 → Value → σ → Method σ ω ε) (start : σ → Method σ ω ε)
      (rest : Value → σ → Method σ ω ε)
  | invoke (marker : UInt32) (locals : Value) (type : ValueType) (known : UInt32 → Bool)
      (again : UInt32 → Value → σ → Method σ ω ε) (start : σ → Method σ ω ε) (state : σ)
      (others : Nat → ω) (rest : Method σ ω ε)

structure FrameCode (σ ω ε : Type) where
  type : ValueType
  known : UInt32 → Bool
  again : UInt32 → Value → σ → Method σ ω ε
  start : σ → Method σ ω ε

inductive RoutineObject (σ ω ε : Type) where
  | stateful (code : FrameCode σ ω ε) (state : σ)
  | other (object : ω)

variable {σ ω ε : Type}

def RoutineObject.holding (state : σ) : RoutineObject σ ω ε → RoutineObject σ ω ε
  | .stateful code _ => .stateful code state
  | .other object => .other object

namespace Script

def withState (use : σ → Script (RoutineObject σ ω ε) ε) : Script (RoutineObject σ ω ε) ε :=
  .act .object fun
    | .stateful _ state => use state
    | .other _ => .done (.returned .unit)

def enterFrame (type : ValueType) (known : UInt32 → Bool)
    (again : UInt32 → Value → σ → Script (RoutineObject σ ω ε) ε)
    (start : σ → Script (RoutineObject σ ω ε) ε) : Script (RoutineObject σ ω ε) ε :=
  enterMarked (withState start) fun sought =>
    if known sought then some fun (locals : Locals type) => withState (again sought locals.val)
    else none

end Script

def Leaving.script {ρ : Type} : Leaving → Script ρ ε
  | .exit (.ok value) => .act (.exit value) fun unwind => .done (.unwound unwind)
  | .exit (.error error) => .act (.errorExit error) fun unwind => .done (.unwound unwind)
  | .cancel request => .done (.unwound (.cancelled request))
  | .fail error => .done (.unwound (.failed error))
  | .panic payload => .done (.panicked payload)

def Method.script (turn : Nat) : (first : Bool) → Method σ ω ε → Script (RoutineObject σ ω ε) ε
  | _, .finish result => .done (.returned result)
  | _, .leave way => way.script
  | _, .effect entry rest => .act (.emit entry) fun _ => rest.script turn true
  | _, .store state rest => .act .object fun object =>
    .act (.become (object.holding state)) fun _ => rest.script turn true
  | _, .suspend marker locals reason rest =>
    .act (.pause reason) (.goOn marker locals fun _ => rest.script turn true)
  | _, .call marker locals type known again start rest =>
    .call (fun _ => .enterFrame type known
        (fun sought locals state => (again sought locals state).script turn false)
        (fun state => (start state).script turn true))
      (.goOn marker locals fun value => .withState fun state => (rest value state).script turn true)
  -- Issued again after a suspension, an invocation gives another object.
  | first, .invoke marker locals type known again start state others rest =>
    .invoke (if first then .stateful ⟨type, known, again, start⟩ state else .other (others turn))
      (.goOn marker locals fun _ => rest.script turn true)

namespace FrameCode

def script (turn : Nat) (code : FrameCode σ ω ε) : Script (RoutineObject σ ω ε) ε :=
  .enterFrame code.type code.known
    (fun sought locals state => (code.again sought locals state).script turn false)
    (fun state => (code.start state).script turn true)

def Resumes (code : FrameCode σ ω ε) (marker : UInt32) (locals : Value) (state : σ)
    (step : Method σ ω ε) : Prop :=
  (marker ≠ freshMarker ∧ marker ≠ pauseMarker) ∧ locals.type = code.type ∧
    code.known marker = true ∧ code.again marker locals state = step

def restarting (step : Method σ ω ε) : FrameCode σ ω ε where
  type := .unit
  known marker := marker = 1
  again _ _ _ := step
  start _ := step

theorem restarting_resumes (state : σ) (step : Method σ ω ε) :
    (restarting step).Resumes 1 .unit state step := ⟨by decide, rfl, rfl, rfl⟩

end FrameCode

def RoutineObject.enter (others : ω → Script (RoutineObject σ ω ε) ε) (turn : Nat) :
    RoutineObject σ ω ε → Script (RoutineObject σ ω ε) ε
  | .stateful code _ => code.script turn
  | .other object => others object

/-- What can be observed of a direct execution; with a wait goes what stays behind while it lasts,
the state of the object and the slots of the frames, from the entry frame inwards. -/
inductive Occurrence (ρ σ ε : Type) where
  | effect (entry : ε)
  | invoked (object : ρ)
  | wait (reason : WaitReason) (state : σ) (held : List (Slot ρ))

namespace Occurrence

variable {ρ : Type}

def inFrame (slot : Slot ρ) : Occurrence ρ σ ε → Occurrence ρ σ ε
  | .wait reason state held => .wait reason state (slot :: held)
  | other => other

def within (object : σ → ρ) (outer : σ) : Occurrence ρ σ ε → Occurrence ρ σ ε
  | .wait reason state held => .wait reason outer (.saved 1 (.routine (object state)) :: held)
  | other => other

end Occurrence

inductive Close where
  | returned (value : Value)
  | left (way : Leaving)

/-- A direct execution: what occurs in it, how it ends, and the state in which it leaves the
object. -/
structure Play (ρ σ ε : Type) where
  occurrences : List (Occurrence ρ σ ε)
  close : Close
  state : σ

namespace Play

variable {ρ : Type}

def before (first : List (Occurrence ρ σ ε)) (play : Play ρ σ ε) : Play ρ σ ε :=
  { play with occurrences := first ++ play.occurrences }

def andThen (play : Play ρ σ ε) (next : Value → σ → Play ρ σ ε) : Play ρ σ ε :=
  match play.close with
  | .returned value => (next value play.state).before play.occurrences
  | .left _ => play

def inFrame (slot : Slot ρ) (play : Play ρ σ ε) : Play ρ σ ε :=
  { play with occurrences := play.occurrences.map (.inFrame slot) }

def within (object : σ → ρ) (outer : σ) (play : Play ρ σ ε) : Play ρ σ ε :=
  { play with occurrences := play.occurrences.map (.within object outer), state := outer }

end Play

def Method.direct : Method σ ω ε → σ → Play (RoutineObject σ ω ε) σ ε
  | .finish result, state => ⟨[], .returned result, state⟩
  | .leave way, state => ⟨[], .left way, state⟩
  | .effect entry rest, state => (rest.direct state).before [.effect entry]
  | .store state rest, _ => rest.direct state
  | .suspend marker locals reason rest, state =>
    (rest.direct state).before [.wait reason state [.saved marker (.value locals)]]
  | .call marker locals _ _ _ start rest, state =>
    (((start state).direct state).inFrame (.saved marker (.value locals))).andThen
      fun value later => (rest value later).direct later
  | .invoke marker locals type known again start initial _ rest, state =>
    let object := RoutineObject.stateful ⟨type, known, again, start⟩
    let invoked := ((start initial).direct initial).within object state
    ((invoked.before [.invoked (object initial)]).inFrame (.saved marker (.value locals))).andThen
      fun _ _ => rest.direct state

/-- Along the direct execution, every step that may suspend is issued again where it was left, in
this frame and in those that it enters, with the state that the object then has. Each invocation
takes one of the `depth` levels that are left of the native stack. -/
def Method.Woven : Method σ ω ε → (code : FrameCode σ ω ε) → (depth : Nat) → σ → Prop
  | .finish _, _, _, _ => True
  | .leave _, _, _, _ => True
  | .effect _ rest, code, depth, state => rest.Woven code depth state
  | .store state rest, code, depth, _ => rest.Woven code depth state
  | .suspend marker locals reason rest, code, depth, state =>
    code.Resumes marker locals state (.suspend marker locals reason rest) ∧
      rest.Woven code depth state
  | .call marker locals type known again start rest, code, depth, state =>
    let called := (start state).direct state
    (∀ later, code.Resumes marker locals later
        (.call marker locals type known again start rest)) ∧
      (start state).Woven ⟨type, known, again, start⟩ depth state ∧
      ∀ value, called.close = .returned value →
        (rest value called.state).Woven code depth called.state
  | .invoke marker locals type known again start initial others rest, code, depth, state =>
    code.Resumes marker locals state
        (.invoke marker locals type known again start initial others rest) ∧
      (∃ inner, depth = inner + 1 ∧
        (start initial).Woven ⟨type, known, again, start⟩ inner initial) ∧
      rest.Woven code depth state

end ResumableTasks
