import ResumableTasks.Script
/-!
The woven form of routine code, by which a frame goes on after a suspension as if nothing had
happened. A frame that calls something which may suspend is entered again at this very call: the
marker that it saved names the call, and with the locals taken back it issues the call once more.
-/
namespace ResumableTasks

abbrev Locals (type : ValueType) := { v : Value // v.type = type }

def Locals.numbers : Locals .vector → List Int64
  | ⟨.vector numbers, _⟩ => numbers

namespace Script

variable {ρ ε α : Type}

/-- Enters a frame: a fresh one by `start`, a rewound one by what `resume` has for its marker, with
the locals captured there. -/
def enterMarked {type : ValueType} (start : Script ρ ε)
    (resume : UInt32 → Option (Locals type → Script ρ ε)) : Script ρ ε :=
  .act .look fun view =>
    let marker := view.frames.marker
    if marker = freshMarker then start
    else match resume marker with
      | none => .done (.unwound (view.unknownMarker marker))
      | some again => .act (.restore type) fun
        | .ok locals =>
          if fits : locals.type = type then again ⟨locals, fits⟩ else .done (.panicked locals)
        | .error unwind => .done (.unwound unwind)

def markerOf (position : Nat) : UInt32 := .ofNat (position + 1)

def enterWoven (size : Nat) (args : List Int64) (body : Nat → List Int64 → Script ρ ε) :
    Script ρ ε :=
  -- The positions of a frame count from zero, their markers from one.
  enterMarked (body 0 args) fun marker =>
    if size < marker.toNat then none
    else some fun locals => body (marker.toNat - 1) locals.numbers

def passOn (suspension : Suspension) (marker : UInt32) (locals : Value)
    (leave : Ending Value → Script ρ ε) : Script ρ ε :=
  .act (.suspend suspension marker locals) fun reply => leave reply.leave

def goOn (marker : UInt32) (locals : Value) (next : α → Script ρ ε) :
    Ending (Called α) → Script ρ ε
  | .returned (.returned value) => next value
  | .returned (.paused suspension) => passOn suspension marker locals .done
  | .unwound unwind => .done (.unwound unwind)
  | .panicked payload => .done (.panicked payload)

end Script

end ResumableTasks
