import ResumableTasks.FrameStack.Step
import ResumableTasks.Proofs.WoundStack
/-!
The operations on a frame stack in small: each is a program of single accesses that changes the
stack as it goes, and an access halts outside the slots, as a subtraction does below zero. From an
empty stack no program halts so, whatever was called before and whatever failed: it does what the
operation does in one step, and where it fails the stack is as it was before the first access.
-/
namespace ResumableTasks

variable {ρ α : Type}

/-- Why a program of accesses stops. Only a fault is an answer to the caller. -/
inductive Halt where
  | outOfBounds (index : Nat)
  | underflow
  | vanished
  | fault (fault : FrameFault)
  deriving DecidableEq, Repr

/-- A program of accesses. What it has written stays written when it halts. -/
abbrev FrameAccess (ρ : Type) := EStateM Halt (FrameStack ρ)

namespace FrameAccess

open Slot

def misuse (m : Misuse) : FrameAccess ρ α := throw (.fault (.misuse m))

def failure (e : FrameError) : FrameAccess ρ α := throw (.fault (.error e))

def minus (a b : Nat) : FrameAccess ρ Nat := if b ≤ a then pure (a - b) else throw .underflow

def load (index : Nat) : FrameAccess ρ (Option (Slot ρ)) := fun s =>
  match s.slots[index]? with
  | some slot => .ok slot s
  | none => .error (.outOfBounds index) s

def store (index : Nat) (slot : Option (Slot ρ)) : FrameAccess ρ Unit := fun s =>
  if index < s.slots.length then .ok () (s.setSlot index slot) else .error (.outOfBounds index) s

def unload (index : Nat) : FrameAccess ρ (Option (Slot ρ)) := do
  let held ← load index
  store index none
  return held

def setMarker (marker : UInt32) : FrameAccess ρ Unit := modify ({ · with marker })

def setDepth (depth : Nat) : FrameAccess ρ Unit := modify ({ · with depth })

def setPausing (pausing : Bool) : FrameAccess ρ Unit := modify ({ · with pausing })

def setSlots (slots : List (Option (Slot ρ))) : FrameAccess ρ Unit := modify ({ · with slots })

def enter : FrameAccess ρ Unit := do
  let index := (← get).depth
  setDepth (index + 1)
  if (← get).slots.length ≤ index then setSlots ((← get).slots ++ [none])
  setMarker (shown (← load index))

def begin : FrameAccess ρ Unit := do
  let depth := (← get).depth
  if depth ≠ 0 then misuse (.beginWound depth)
  setPausing false
  enter

def finish : FrameAccess ρ Bool := do
  let depth := (← get).depth
  if depth ≠ 1 then misuse (.finishAwayFromEntry depth)
  let suspended := (← get).pausing
  if !suspended then setSlots []
  setPausing false
  setDepth 0
  setMarker freshMarker
  return suspended

def leave : FrameAccess ρ Departure := do
  let depth := (← get).depth
  if depth < 2 then misuse (.leaveUnmatched depth)
  let callee ← minus depth 1
  setDepth (← minus depth 1)
  let caller ← minus callee 1
  if (← get).pausing then
    setMarker (shown (← load caller))
    return ⟨true, (← load caller).isSome⟩
  else
    store callee none
    setMarker freshMarker
    return ⟨false, (← unload caller).isSome⟩

def capture (marker : UInt32) (locals : Captured ρ) : FrameAccess ρ Unit := do
  let depth := (← get).depth
  if depth = 0 then misuse .captureUnwound
  if marker = freshMarker ∨ marker = pauseMarker then misuse (.captureReserved marker)
  store (← minus depth 1) (some (.saved marker locals))
  setPausing true

def currentIndex : FrameAccess ρ Nat := do
  let depth := (← get).depth
  if depth = 0 then failure .notWound
  minus depth 1

def unfit (depth : Nat) (expected : Expectation ρ α) : Option (Slot ρ) → FrameError
  | some (.saved _ state) => .mismatch depth state.type.name expected.name
  | some .pause => .mismatch depth "pause sentinel" expected.name
  | none => .nothingCaptured depth

def state (expected : Expectation ρ α) : FrameAccess ρ α := do
  let slot ← load (← currentIndex)
  match slot with
  | some (.saved _ state) =>
    match expected.read state with
    | some content => return content
    | none => failure (unfit (← get).depth expected slot)
  | _ => failure (unfit (← get).depth expected slot)

/-- Looks at the slot once to check its type and a second time to write to it. -/
def replace (content : Captured ρ) : FrameAccess ρ (Captured ρ) := do
  let expected : Expectation ρ (Captured ρ) := .captured content.type
  let index ← currentIndex
  let slot ← load index
  match slot with
  | some (.saved _ was) =>
    if was.type ≠ content.type then failure (unfit (← get).depth expected slot)
  | _ => failure (unfit (← get).depth expected slot)
  match ← load index with
  | some (.saved marker was) =>
    store index (some (.saved marker content))
    return was
  | _ => throw .vanished

def take (expected : Expectation ρ α) : FrameAccess ρ α := do
  let index ← currentIndex
  let slot ← unload index
  match slot with
  | some (.saved _ state) =>
    match expected.read state with
    | some content => return content
    | none =>
      store index slot
      failure (unfit (← get).depth expected slot)
  | some .pause =>
    store index slot
    failure (unfit (← get).depth expected slot)
  | none => failure (unfit (← get).depth expected slot)

def togglePause : FrameAccess ρ Unit := do
  let index ← currentIndex
  match ← load index with
  | none =>
    store index (some .pause)
    setPausing true
  | some .pause =>
    store index none
    setPausing false
  | some (.saved marker _) => failure (.pauseExpected (← get).depth marker)

def recoverTo (index : Nat) : FrameAccess ρ UInt32 := do
  let depth := (← get).depth
  if depth ≤ index then failure (.frameNotWound index depth)
  let slots := (← get).slots
  setSlots (slots.take (index + 1) ++ (slots.drop (index + 1)).map fun _ => none)
  setDepth (index + 1)
  setMarker (shown (← load index))
  return (← get).marker

def clear : FrameAccess ρ Unit := set ({} : FrameStack ρ)

end FrameAccess

namespace FrameStep

def perform : FrameStep ρ → FrameAccess ρ (FrameAnswer ρ)
  | .begin => do FrameAccess.begin; return .marker (← get).marker
  | .finish => return .suspended (← FrameAccess.finish)
  | .enter => do FrameAccess.enter; return .marker (← get).marker
  | .leave => return .left (← FrameAccess.leave)
  | .capture marker locals => do FrameAccess.capture marker locals; return .done
  | .state type => return .state (← FrameAccess.state (.captured type))
  | .replace content => return .replaced (← FrameAccess.replace content)
  | .take type => return .state (← FrameAccess.take (.captured type))
  | .togglePause => do FrameAccess.togglePause; return .done
  | .recoverTo index => return .marker (← FrameAccess.recoverTo index)
  | .clear => do FrameAccess.clear; return .done

end FrameStep

namespace FrameAccess

section

variable {s : FrameStack ρ}

@[simp]
theorem bind_apply {β : Type} (x : FrameAccess ρ α) (f : α → FrameAccess ρ β) (s : FrameStack ρ) :
    (x >>= f) s = match x s with
      | .ok a s' => f a s'
      | .error halt s' => .error halt s' := by
  change EStateM.bind x f s = _
  unfold EStateM.bind
  cases x s <;> rfl

@[simp]
theorem map_apply {β : Type} (f : α → β) (x : FrameAccess ρ α) (s : FrameStack ρ) :
    (f <$> x) s = match x s with
      | .ok a s' => .ok (f a) s'
      | .error halt s' => .error halt s' := by
  change EStateM.map f x s = _
  unfold EStateM.map
  cases x s <;> rfl

@[simp]
theorem pure_apply (a : α) (s : FrameStack ρ) : (pure a : FrameAccess ρ α) s = .ok a s := rfl

@[simp]
theorem get_apply (s : FrameStack ρ) : (get : FrameAccess ρ (FrameStack ρ)) s = .ok s s := rfl

@[simp]
theorem misuse_apply (m : Misuse) (s : FrameStack ρ) :
    (misuse m : FrameAccess ρ α) s = .error (.fault (.misuse m)) s := rfl

@[simp]
theorem failure_apply (e : FrameError) (s : FrameStack ρ) :
    (failure e : FrameAccess ρ α) s = .error (.fault (.error e)) s := rfl

@[simp]
theorem setMarker_apply (marker : UInt32) (s : FrameStack ρ) :
    setMarker marker s = .ok () { s with marker } := rfl

@[simp]
theorem setDepth_apply (depth : Nat) (s : FrameStack ρ) :
    setDepth depth s = .ok () { s with depth } := rfl

@[simp]
theorem setPausing_apply (pausing : Bool) (s : FrameStack ρ) :
    setPausing pausing s = .ok () { s with pausing } := rfl

@[simp]
theorem setSlots_apply (slots : List (Option (Slot ρ))) (s : FrameStack ρ) :
    setSlots slots s = .ok () { s with slots } := rfl

theorem minus_apply {a b : Nat} (enough : b ≤ a) (s : FrameStack ρ) :
    minus a b s = .ok (a - b) s := by simp [minus, enough]

theorem load_apply {index : Nat} (inside : index < s.slots.length) :
    load index s = .ok (s.slotAt index) s := by
  simp [load, FrameStack.slotAt, inside]

theorem store_apply {index : Nat} (inside : index < s.slots.length) (slot : Option (Slot ρ)) :
    store index slot s = .ok () (s.setSlot index slot) := by
  simp [store, inside]

theorem unload_apply {index : Nat} (inside : index < s.slots.length) :
    unload index s = .ok (s.slotAt index) (s.setSlot index none) := by
  simp [unload, load_apply inside, store_apply inside]

theorem setSlot_held {index : Nat} (inside : index < s.slots.length) {slot : Option (Slot ρ)}
    (held : s.slotAt index = slot) : s.setSlot index slot = s := by
  simp [← held, FrameStack.setSlot, FrameStack.slotAt, inside]

theorem store_held {index : Nat} (inside : index < s.slots.length) {slot : Option (Slot ρ)}
    (held : s.slotAt index = slot) : store index slot (s.setSlot index none) = .ok () s := by
  have same := setSlot_held inside held
  have still : index < (s.setSlot index none).slots.length := by
    simpa [FrameStack.setSlot] using inside
  rw [store_apply still]
  simpa [FrameStack.setSlot] using same

end

@[simp]
theorem mapError_ok {ε ε' : Type} (a : α) (wrap : ε → ε') :
    (Except.ok a : Except ε α).mapError wrap = .ok a := rfl

@[simp]
theorem mapError_error {ε ε' : Type} (e : ε) (wrap : ε → ε') :
    (Except.error e : Except ε α).mapError wrap = .error (wrap e) := rfl

/-- How a program ends that does what an operation says it does: where the operation fails, nothing
of what the program wrote is left. -/
def settled (s : FrameStack ρ) :
    Except FrameFault (α × FrameStack ρ) → EStateM.Result Halt (FrameStack ρ) α
  | .ok (answer, s') => .ok answer s'
  | .error fault => .error (.fault fault) s

section

variable {s : FrameStack ρ}

theorem enter_apply (fits : s.depth ≤ s.slots.length) : enter s = .ok () s.enter := by
  by_cases short : s.slots.length ≤ s.depth
  · simp (disch := simp; omega) only [enter, FrameStack.enter, bind_apply, get_apply,
      setDepth_apply, short, ↓reduceIte, setSlots_apply, load_apply, setMarker_apply]
    rfl
  · simp (disch := simp; omega) only [enter, FrameStack.enter, bind_apply, get_apply,
      setDepth_apply, short, ↓reduceIte, load_apply, setMarker_apply]
    rfl

theorem begin_apply (s : FrameStack ρ) :
    begin s = settled s ((s.begin.mapError .misuse).map fun s' => ((), s')) := by
  by_cases unwound : s.depth = 0
  · simp (disch := simp) only [begin, FrameStack.begin, bind_apply, get_apply, unwound, ne_eq,
      not_true_eq_false, ↓reduceIte, setPausing_apply, enter_apply]
    rfl
  · simp [begin, FrameStack.begin, unwound, settled, Except.map]

theorem finish_apply (s : FrameStack ρ) : finish s = settled s (s.finish.mapError .misuse) := by
  by_cases entry : s.depth = 1
  · cases pausing : s.pausing <;>
      simp [finish, FrameStack.finish, entry, pausing, settled]
  · simp [finish, FrameStack.finish, entry, settled]

theorem leave_apply (fits : s.depth ≤ s.slots.length) :
    leave s = settled s (s.leave.mapError .misuse) := by
  by_cases shallow : s.depth < 2
  · simp only [leave, FrameStack.leave, bind_apply, get_apply, shallow, ↓reduceIte, misuse_apply]
    rfl
  · simp (disch := omega) only [leave, FrameStack.leave, bind_apply, get_apply, shallow,
      ↓reduceIte, minus_apply, setDepth_apply]
    cases pausing : s.pausing with
    | true =>
      simp (disch := simp; omega) only [↓reduceIte, bind_apply, load_apply, setMarker_apply,
        pure_apply]
      rfl
    | false =>
      have apart : s.depth - 1 ≠ s.depth - 2 := by omega
      simp (disch := simp [FrameStack.setSlot]; omega) only [Bool.false_eq_true, ↓reduceIte,
        bind_apply, store_apply, setMarker_apply, unload_apply, pure_apply]
      simp [settled, FrameStack.setSlot, FrameStack.slotAt, Nat.sub_sub,
        List.getElem?_set_ne apart]

theorem capture_apply (fits : s.depth ≤ s.slots.length) (marker : UInt32) (locals : Captured ρ) :
    capture marker locals s =
      settled s (((s.capture marker locals).mapError .misuse).map fun s' => ((), s')) := by
  by_cases unwound : s.depth = 0
  · simp [capture, FrameStack.capture, unwound, settled, Except.map]
  · by_cases reserved : marker = freshMarker ∨ marker = pauseMarker
    · simp [capture, FrameStack.capture, unwound, reserved, settled, Except.map]
    · simp (disch := omega) only [capture, FrameStack.capture, bind_apply, get_apply, unwound,
        ↓reduceIte, reserved, minus_apply, store_apply, setPausing_apply]
      rfl

theorem currentIndex_unwound (unwound : s.depth = 0) :
    currentIndex s = .error (.fault (.error .notWound)) s := by
  simp [currentIndex, unwound]

theorem currentIndex_apply (entered : s.depth ≠ 0) :
    currentIndex s = .ok (s.depth - 1) s := by
  simp (disch := omega) [currentIndex, entered, minus_apply]

theorem state_apply (fits : s.depth ≤ s.slots.length) (expected : Expectation ρ α) :
    state expected s =
      settled s (((s.state expected).mapError .error).map fun content => (content, s)) := by
  by_cases unwound : s.depth = 0
  · simp [state, FrameStack.state, unwound, currentIndex_unwound, settled, Except.map]
  · have inside : s.depth - 1 < s.slots.length := by omega
    simp only [state, FrameStack.state, unwound, ↓reduceIte, bind_apply,
      currentIndex_apply unwound, load_apply inside, FrameStack.current]
    rcases s.slotAt (s.depth - 1) with _ | _ | ⟨marker, content⟩
    · rfl
    · rfl
    · cases fits : expected.read content <;>
        simp [fits, unfit, settled, Except.map]

theorem take_apply (fits : s.depth ≤ s.slots.length) (expected : Expectation ρ α) :
    take expected s = settled s ((s.take expected).mapError .error) := by
  by_cases unwound : s.depth = 0
  · simp [take, FrameStack.take, FrameStack.state, unwound, currentIndex_unwound, settled,
      Except.map]
  · have inside : s.depth - 1 < s.slots.length := by omega
    simp only [take, FrameStack.take, FrameStack.state, unwound, ↓reduceIte, bind_apply,
      currentIndex_apply unwound, unload_apply inside, FrameStack.current]
    rcases held : s.slotAt (s.depth - 1) with _ | _ | ⟨marker, content⟩
    · simp [setSlot_held inside held, unfit, settled, Except.map]
    · simp [store_held inside held, unfit, settled, Except.map]
    · cases fits : expected.read content <;>
        simp [fits, store_held inside held, unfit, settled, Except.map]

theorem replace_apply (fits : s.depth ≤ s.slots.length) (content : Captured ρ) :
    replace content s = settled s ((s.replace content).mapError .error) := by
  by_cases unwound : s.depth = 0
  · simp [replace, FrameStack.replace, FrameStack.state, unwound, currentIndex_unwound, settled,
      Except.map]
  · have inside : s.depth - 1 < s.slots.length := by omega
    simp only [replace, FrameStack.replace, FrameStack.state, unwound, ↓reduceIte, bind_apply,
      currentIndex_apply unwound, load_apply inside, FrameStack.current, FrameStack.markerAt]
    rcases held : s.slotAt (s.depth - 1) with _ | _ | ⟨marker, was⟩
    · rfl
    · rfl
    · by_cases same : was.type = content.type
      · simp [same, Expectation.captured, load_apply inside, store_apply inside, held, settled,
          Except.map, Slot.marker]
      · simp [same, Expectation.captured, unfit, settled, Except.map]

theorem togglePause_apply (fits : s.depth ≤ s.slots.length) :
    togglePause s = settled s ((s.togglePause.mapError .error).map fun s' => ((), s')) := by
  by_cases unwound : s.depth = 0
  · simp [togglePause, FrameStack.togglePause, unwound, currentIndex_unwound, settled,
      Except.map]
  · have inside : s.depth - 1 < s.slots.length := by omega
    simp only [togglePause, FrameStack.togglePause, unwound, ↓reduceIte, bind_apply,
      currentIndex_apply unwound, load_apply inside, FrameStack.current]
    rcases s.slotAt (s.depth - 1) with _ | _ | ⟨marker, content⟩
    · simp [store_apply inside, settled, Except.map]
    · simp [store_apply inside, settled, Except.map]
    · rfl

theorem recoverTo_apply (fits : s.depth ≤ s.slots.length) (index : Nat) :
    recoverTo index s = settled s ((s.recoverTo index).mapError .error) := by
  by_cases away : s.depth ≤ index
  · simp [recoverTo, FrameStack.recoverTo, away, settled]
  · have inside : index < s.slots.length := by omega
    have emptied : (s.slots.drop (index + 1)).map (fun _ => (none : Option (Slot ρ))) =
        List.replicate (s.slots.length - (s.slots.take (index + 1)).length) none := by
      rw [List.map_const', List.length_drop, List.length_take, Nat.min_eq_left inside]
    have kept : index < (s.slots.take (index + 1)).length := by
      rw [List.length_take]
      omega
    simp (disch := simp; omega) only [recoverTo, FrameStack.recoverTo, bind_apply, get_apply, away,
      ↓reduceIte, setSlots_apply, setDepth_apply, emptied, load_apply, setMarker_apply, pure_apply]
    generalize List.replicate _ _ = above
    have same : (s.slots.take (index + 1) ++ above)[index]? = s.slots[index]? := by
      rw [List.getElem?_append_left kept, List.getElem?_take_of_lt (Nat.lt_succ_self index)]
    simp only [FrameStack.markerAt, FrameStack.slotAt, same]
    rfl

end

end FrameAccess

namespace FrameStep

open FrameAccess

/-- On a stack whose depth is covered by slots, the program of an operation does what the operation
says it does. -/
theorem perform_eq {s : FrameStack ρ} (fits : s.depth ≤ s.slots.length) (step : FrameStep ρ) :
    step.perform s = settled s (step.attempt s) := by
  cases step with
  | begin =>
    simp only [perform, attempt, bind_apply, begin_apply]
    cases s.begin <;> rfl
  | finish =>
    simp only [perform, attempt, bind_apply, finish_apply]
    cases s.finish <;> rfl
  | enter =>
    simp only [perform, attempt, bind_apply, enter_apply fits]
    rfl
  | leave =>
    simp only [perform, attempt, bind_apply, leave_apply fits]
    cases s.leave <;> rfl
  | capture marker locals =>
    simp only [perform, attempt, bind_apply, capture_apply fits]
    cases s.capture marker locals <;> rfl
  | state type =>
    simp only [perform, attempt, bind_apply, state_apply fits]
    cases s.state (.captured type) <;> rfl
  | replace content =>
    simp only [perform, attempt, bind_apply, replace_apply fits]
    cases s.replace content <;> rfl
  | take type =>
    simp only [perform, attempt, bind_apply, take_apply fits]
    cases s.take (.captured type) <;> rfl
  | togglePause =>
    simp only [perform, attempt, bind_apply, togglePause_apply fits]
    cases s.togglePause <;> rfl
  | recoverTo index =>
    simp only [perform, attempt, bind_apply, recoverTo_apply fits]
    cases s.recoverTo index <;> rfl
  | clear => rfl

end FrameStep

end ResumableTasks
