import ResumableTasks.Proofs.RunPhases
import ResumableTasks.Script
/-!
What is noted of routine code while it runs. A tracer names what is noted of an operation, and of a
frame that is left; the trace of a script puts this in its order, over all calls and invocations.
-/
namespace ResumableTasks

variable {ρ ε α β : Type}

/-- `op` is noted of an operation in the context in which it is performed, `leaving` of the context
in which the frame of a call is left. -/
structure Tracer (ρ ε β : Type) where
  op : Context ρ ε → Op ρ ε → List β
  leaving : Context ρ ε → List β := fun _ => []

namespace Context

def callTrace (t : Tracer ρ ε β) (inner : Context ρ ε → List β)
    (body : Context ρ ε → Ending α × Context ρ ε) (cx : Context ρ ε) : List β :=
  let entered := { cx with frames := cx.frames.enter }
  inner entered ++ match body entered with
    -- A frame that a panic goes through is not left.
    | (.panicked _, _) => []
    | (_, last) => t.leaving last

theorem callTrace_silent (t : Tracer ρ ε β) (silent : ∀ cx, t.leaving cx = [])
    (inner : Context ρ ε → List β) (body : Context ρ ε → Ending α × Context ρ ε)
    (cx : Context ρ ε) :
    callTrace t inner body cx = inner { cx with frames := cx.frames.enter } := by
  simp only [callTrace, silent]
  split
  · exact List.append_nil _
  · exact List.append_nil _

def invokeFrameTrace (t : Tracer ρ ε β) (inner : Context ρ ε → List β)
    (execute : Context ρ ε → Ending Unit × Context ρ ε) (given : ρ) (cx : Context ρ ε) : List β :=
  match if cx.frames.rewinding then cx.frames.take .routine else .ok (given, cx.frames) with
  | .error _ => []
  | .ok (target, frames) => callTrace t inner execute { cx with frames, object := target }

def afterInvoked (outer : ρ) (ending : Ending (Called Unit)) (cx : Context ρ ε) :
    Ending Unit × Context ρ ε :=
  match ending with
  | .returned (.returned ()) => (.returned (), { cx with object := outer })
  | .returned (.paused suspension) =>
    let passed := suspend { cx with object := outer } suspension 1 (.routine cx.object)
    (passed.1.leave, passed.2)
  | .unwound unwind => (.unwound unwind, { cx with object := outer })
  | .panicked payload => (.panicked payload, { cx with object := outer })

theorem invokeFrame_eq (execute : Context ρ ε → Ending Unit × Context ρ ε) (given : ρ)
    (cx : Context ρ ε) :
    invokeFrame execute given cx =
      match if cx.frames.rewinding then cx.frames.take .routine else .ok (given, cx.frames) with
      | .error e => (.ofError e.toError, cx)
      | .ok (target, frames) =>
        let called := call execute { cx with frames, object := target }
        afterInvoked cx.object called.1 called.2 := by
  unfold invokeFrame
  dsimp only
  generalize (if cx.frames.rewinding then cx.frames.take .routine else .ok (given, cx.frames) :
    Except FrameError (ρ × FrameStack ρ)) = target
  rcases target with _ | ⟨target, frames⟩
  · rfl
  · dsimp only
    rcases (call execute { cx with frames, object := target }).1 with (_ | _) | _ | _ <;> rfl

theorem target_frames {s frames : FrameStack ρ} {given target : ρ}
    (found : (if s.rewinding = true then s.take .routine else .ok (given, s)) =
      .ok (target, frames)) : frames = s ∨ frames = s.setSlot (s.depth - 1) none := by
  split at found
  · simp only [FrameStack.take, Except.map] at found
    split at found
    · cases found
    · obtain ⟨-, rfl⟩ := Prod.mk.inj (Except.ok.inj found)
      exact .inr rfl
  · obtain ⟨-, rfl⟩ := Prod.mk.inj (Except.ok.inj found)
    exact .inl rfl

end Context

namespace Script

def trace (t : Tracer ρ ε β) (execute : Context ρ ε → Ending Unit × Context ρ ε)
    (inner : Context ρ ε → List β) : Script ρ ε → Context ρ ε → List β
  | .done _, _ => []
  | .act op next, cx =>
    let performed := op.perform execute cx
    t.op cx op ++ (next performed.1).trace t execute inner performed.2
  | .call body next, cx =>
    let run := fun cx => (body ()).exec execute cx
    let called := Context.call run cx
    Context.callTrace t (fun cx => (body ()).trace t execute inner cx) run cx ++
      (next called.1).trace t execute inner called.2
  | .invoke object next, cx =>
    let called := Context.invoke execute object cx
    Context.callTrace t (Context.invokeFrameTrace t inner execute object)
        (Context.invokeFrame execute object) cx ++
      (next called.1).trace t execute inner called.2

def executeTrace (t : Tracer ρ ε β) (enter : ρ → Script ρ ε) : Nat → Context ρ ε → List β
  | 0, _ => []
  | depth + 1, cx =>
    (enter cx.object).trace t (execute enter depth) (executeTrace t enter depth) cx

end Script

def World.trace (w : World ρ ε) (t : Tracer ρ ε β) (enter : ρ → Script ρ ε) (depth task : Nat) :
    List β :=
  match w.entry task with
  | none => []
  | some cx => Script.executeTrace t enter depth cx

/-- What a run does, of which the execution of a routine object is one thing. -/
inductive Act (ρ ε : Type) where
  | op (op : Op ρ ε)
  | execute (object : ρ)

namespace Act

def executed? : Act ρ ε → Option ρ
  | .op _ => none
  | .execute object => some object

def tracer : Tracer ρ ε (Act ρ ε) where
  op _ op := [.op op]

end Act

namespace Script

def actsBy (execute : Context ρ ε → Ending Unit × Context ρ ε)
    (inner : Context ρ ε → List (Act ρ ε)) (script : Script ρ ε) (cx : Context ρ ε) :
    List (Act ρ ε) :=
  script.trace Act.tracer execute inner cx

def acts (enter : ρ → Script ρ ε) : Nat → Context ρ ε → List (Act ρ ε)
  | 0, cx => [.execute cx.object]
  | depth + 1, cx =>
    .execute cx.object :: (enter cx.object).actsBy (execute enter depth) (acts enter depth) cx

end Script

def World.acts (w : World ρ ε) (enter : ρ → Script ρ ε) (depth task : Nat) : List (Act ρ ε) :=
  match w.entry task with
  | none => []
  | some cx => Script.acts enter depth cx

end ResumableTasks
