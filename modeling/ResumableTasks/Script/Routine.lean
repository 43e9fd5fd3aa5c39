import ResumableTasks.Script.Woven
/-!
Routine trees: sequences of steps over the locals of a frame, where a step has an effect, suspends
on a condition or calls another routine. A tree has two readings. Executed directly, depth first, a
suspension does nothing; woven, it is a script that can be suspended and entered again.
-/
namespace ResumableTasks

/-- The locals of a routine have the type of its index. Each step that may suspend has a marker, and
each takes what it needs from the locals. -/
inductive Routine (ε : Type) : ValueType → Type where
  | finish {τ : ValueType} (result : Locals τ → Value) : Routine ε τ
  | effect {τ : ValueType} (entry : Locals τ → ε) (change : Locals τ → Locals τ)
      (rest : Routine ε τ) : Routine ε τ
  | suspend {τ : ValueType} (marker : UInt32) (reason : Locals τ → WaitReason)
      (rest : Routine ε τ) : Routine ε τ
  | call {τ σ : ValueType} (marker : UInt32) (callee : Routine ε σ) (args : Locals τ → Locals σ)
      (absorb : Locals τ → Value → Locals τ) (rest : Routine ε τ) : Routine ε τ

inductive Event (ε : Type) where
  | effect (entry : ε)
  | wait (reason : WaitReason)

namespace Routine

variable {ρ ε : Type} {τ : ValueType}

def direct {τ : ValueType} : Routine ε τ → Locals τ → List (Event ε) × Value
  | .finish result, locals => ([], result locals)
  | .effect entry change rest, locals =>
    let later := rest.direct (change locals)
    (.effect (entry locals) :: later.1, later.2)
  | .suspend _ reason rest, locals =>
    let later := rest.direct locals
    (.wait (reason locals) :: later.1, later.2)
  | .call _ callee args absorb rest, locals =>
    let called := callee.direct (args locals)
    let later := rest.direct (absorb locals called.2)
    (called.1 ++ later.1, later.2)

def markers {τ : ValueType} : Routine ε τ → List UInt32
  | .finish _ => []
  | .effect _ _ rest => rest.markers
  | .suspend marker _ rest => marker :: rest.markers
  | .call marker _ _ _ rest => marker :: rest.markers

def WellMarked {τ : ValueType} : Routine ε τ → Prop
  | .finish _ => True
  | .effect _ _ rest => rest.WellMarked
  | .suspend marker _ rest =>
    (marker ≠ freshMarker ∧ marker ≠ pauseMarker) ∧ marker ∉ rest.markers ∧ rest.WellMarked
  | .call marker callee _ _ rest =>
    (marker ≠ freshMarker ∧ marker ≠ pauseMarker) ∧ marker ∉ rest.markers ∧
      callee.WellMarked ∧ rest.WellMarked

instance decidableWellMarked {τ : ValueType} : (r : Routine ε τ) → Decidable r.WellMarked
  | .finish _ => isTrue trivial
  | .effect _ _ rest => decidableWellMarked rest
  | .suspend marker _ rest =>
    have := decidableWellMarked rest
    inferInstanceAs (Decidable ((marker ≠ freshMarker ∧ marker ≠ pauseMarker) ∧
      marker ∉ rest.markers ∧ rest.WellMarked))
  | .call marker callee _ _ rest =>
    have := decidableWellMarked callee
    have := decidableWellMarked rest
    inferInstanceAs (Decidable ((marker ≠ freshMarker ∧ marker ≠ pauseMarker) ∧
      marker ∉ rest.markers ∧ callee.WellMarked ∧ rest.WellMarked))

mutual

def code {τ : ValueType} : Routine ε τ → Locals τ → Script ρ ε
  | .finish result, locals => .done (.returned (result locals))
  | .effect entry change rest, locals =>
    .act (.emit (entry locals)) fun _ => rest.code (change locals)
  | .suspend marker reason rest, locals =>
    .act (.pause (reason locals)) (.goOn marker locals fun _ => rest.code locals)
  | .call marker callee args absorb rest, locals =>
    .call (fun _ => .enterMarked (callee.code (args locals)) callee.resume)
      (.goOn marker locals fun value => rest.code (absorb locals value))

def resume {τ : ValueType} : Routine ε τ → UInt32 → Option (Locals τ → Script ρ ε)
  | .finish _, _ => none
  | .effect _ _ rest, sought => rest.resume sought
  | .suspend marker reason rest, sought =>
    if marker = sought then some fun locals =>
      .act (.pause (reason locals)) (.goOn marker locals fun _ => rest.code locals)
    else rest.resume sought
  | .call marker callee args absorb rest, sought =>
    if marker = sought then some fun locals =>
      .call (fun _ => .enterMarked (callee.code (args locals)) callee.resume)
        (.goOn marker locals fun value => rest.code (absorb locals value))
    else rest.resume sought

end

def woven (r : Routine ε τ) (args : Locals τ) : Script ρ ε := .enterMarked (r.code args) r.resume

end Routine

end ResumableTasks
