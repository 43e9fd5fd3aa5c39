import ResumableTasks.Script.Routine
/-!
Woven routines that suspend again and again. A frame that is told of a suspension may ask for
further ones, with other conditions, before it captures its locals.
-/
namespace ResumableTasks

/-- The further conditions of each step, with the locals it has: a step is named by the markers on
the way to it, from the entry frame inwards. -/
abbrev Insistence := List UInt32 → Value → List WaitReason

namespace Script

variable {ρ ε α : Type}

def pauseAgain (told : Suspension) (next : Suspension → Script ρ ε) :
    List WaitReason → Script ρ ε
  | [] => next told
  | reason :: more => .act (.pause reason) fun
    | .returned (.paused suspension) => pauseAgain suspension next more
    | .returned (.returned ()) => pauseAgain told next more
    | .unwound unwind => .done (.unwound unwind)
    | .panicked payload => .done (.panicked payload)

def goOnInsisting (again : List WaitReason) (marker : UInt32) (locals : Value)
    (next : α → Script ρ ε) : Ending (Called α) → Script ρ ε
  | .returned (.paused suspension) =>
    pauseAgain suspension (fun told => passOn told marker locals .done) again
  | reply => goOn marker locals next reply

end Script

namespace Routine

variable {ρ ε : Type} {τ : ValueType}

mutual

def insistentCode {τ : ValueType} (again : Insistence) :
    Routine ε τ → Locals τ → Script ρ ε
  | .finish result, locals => .done (.returned (result locals))
  | .effect entry change rest, locals =>
    .act (.emit (entry locals)) fun _ => rest.insistentCode again (change locals)
  | .suspend marker reason rest, locals =>
    .act (.pause (reason locals)) (.goOnInsisting (again [marker] locals.val) marker locals fun _ =>
      rest.insistentCode again locals)
  | .call marker callee args absorb rest, locals =>
    .call (fun _ => .enterMarked
        (callee.insistentCode (fun path => again (marker :: path)) (args locals))
        (callee.insistentResume fun path => again (marker :: path)))
      (.goOnInsisting (again [marker] locals.val) marker locals fun value =>
        rest.insistentCode again (absorb locals value))

def insistentResume {τ : ValueType} (again : Insistence) :
    Routine ε τ → UInt32 → Option (Locals τ → Script ρ ε)
  | .finish _, _ => none
  | .effect _ _ rest, sought => rest.insistentResume again sought
  | .suspend marker reason rest, sought =>
    if marker = sought then some fun locals =>
      .act (.pause (reason locals)) (.goOnInsisting (again [marker] locals.val) marker locals
        fun _ => rest.insistentCode again locals)
    else rest.insistentResume again sought
  | .call marker callee args absorb rest, sought =>
    if marker = sought then some fun locals =>
      .call (fun _ => .enterMarked
          (callee.insistentCode (fun path => again (marker :: path)) (args locals))
          (callee.insistentResume fun path => again (marker :: path)))
        (.goOnInsisting (again [marker] locals.val) marker locals fun value =>
          rest.insistentCode again (absorb locals value))
    else rest.insistentResume again sought

end

def insistent (again : Insistence) (r : Routine ε τ) (args : Locals τ) : Script ρ ε :=
  .enterMarked (r.insistentCode again args) (r.insistentResume again)

end Routine

end ResumableTasks
