import ResumableTasks.Proofs.CheckedAccess
/-!
When the operations on a frame stack fail. Each has its conditions on the depth, the marker, the
slot of the current frame and the type of what it holds; there are no others. On every stack that
operations lead to, whatever they were and whichever of them failed, an operation that fails has
changed nothing, and no access of any of them is outside the slots.
-/
namespace ResumableTasks

variable {ρ α : Type}

namespace FrameStack

/-- Every wound frame has a slot, and an unwound stack has no suspension and no marker left over. -/
structure Tidy (s : FrameStack ρ) : Prop where
  covered : s.depth ≤ s.slots.length
  unwound : s.depth = 0 → s.pausing = false ∧ s.marker = freshMarker

inductive Unreadable (s : FrameStack ρ) (type : CapturedType) : FrameError → Prop where
  | unwound : s.depth = 0 → Unreadable s type .notWound
  | empty : s.depth ≠ 0 → s.current = none → Unreadable s type (.nothingCaptured s.depth)
  | sentinel : s.depth ≠ 0 → s.current = some .pause →
      Unreadable s type (.mismatch s.depth "pause sentinel" type.name)
  | otherType {marker : UInt32} {state : Captured ρ} : s.depth ≠ 0 →
      s.current = some (.saved marker state) → state.type ≠ type →
      Unreadable s type (.mismatch s.depth state.type.name type.name)

section

variable {s : FrameStack ρ}

theorem begin_error_iff {misuse : Misuse} :
    s.begin = .error misuse ↔ s.depth ≠ 0 ∧ .beginWound s.depth = misuse := by
  by_cases unwound : s.depth = 0 <;> simp [begin, unwound]

theorem finish_error_iff {misuse : Misuse} :
    s.finish = .error misuse ↔ s.depth ≠ 1 ∧ .finishAwayFromEntry s.depth = misuse := by
  by_cases entry : s.depth = 1 <;> simp [finish, entry]

theorem leave_error_iff {misuse : Misuse} :
    s.leave = .error misuse ↔ s.depth < 2 ∧ .leaveUnmatched s.depth = misuse := by
  by_cases shallow : s.depth < 2
  · simp [leave, shallow]
  · cases pausing : s.pausing <;> simp [leave, shallow, pausing]

theorem capture_error_iff {marker : UInt32} {locals : Captured ρ} {misuse : Misuse} :
    s.capture marker locals = .error misuse ↔ (s.depth = 0 ∧ .captureUnwound = misuse) ∨
      s.depth ≠ 0 ∧ (marker = freshMarker ∨ marker = pauseMarker) ∧
        .captureReserved marker = misuse := by
  by_cases unwound : s.depth = 0
  · simp [capture, unwound]
  · by_cases reserved : marker = freshMarker ∨ marker = pauseMarker <;>
      simp [capture, unwound, reserved]

theorem togglePause_error_iff {error : FrameError} :
    s.togglePause = .error error ↔ (s.depth = 0 ∧ .notWound = error) ∨
      s.depth ≠ 0 ∧ ∃ marker state, s.current = some (.saved marker state) ∧
        .pauseExpected s.depth marker = error := by
  by_cases unwound : s.depth = 0
  · simp [togglePause, unwound]
  · rcases held : s.current with _ | _ | ⟨marker, state⟩ <;> simp [togglePause, unwound, held]

theorem recoverTo_error_iff {index : Nat} {error : FrameError} :
    s.recoverTo index = .error error ↔
      s.depth ≤ index ∧ .frameNotWound index s.depth = error := by
  by_cases away : s.depth ≤ index <;> simp [recoverTo, away]

theorem entered_of_state {expected : Expectation ρ α} {content : α}
    (read : s.state expected = .ok content) : s.depth ≠ 0 := by
  intro unwound
  simp [state, unwound] at read

end

theorem read_eq_none_iff {type : CapturedType} {state : Captured ρ} :
    (Expectation.captured type).read state = none ↔ state.type ≠ type := by
  simp [Expectation.captured]

theorem state_error_iff {s : FrameStack ρ} {type : CapturedType} {error : FrameError} :
    s.state (.captured type) = .error error ↔ s.Unreadable type error := by
  constructor
  · intro failed
    by_cases unwound : s.depth = 0
    · simp only [state, unwound, ↓reduceIte, Except.error.injEq] at failed
      exact failed ▸ .unwound unwound
    · rcases held : s.current with _ | _ | ⟨marker, content⟩ <;>
        simp only [state, unwound, ↓reduceIte, held] at failed
      · exact Except.error.inj failed ▸ .empty unwound held
      · exact Except.error.inj failed ▸ .sentinel unwound held
      · split at failed
        · cases failed
        · next unread =>
          exact Except.error.inj failed ▸ .otherType unwound held (read_eq_none_iff.mp unread)
  · intro unreadable
    cases unreadable with
    | unwound unwound => simp [state, unwound]
    | empty entered held => simp [state, entered, held]
    | sentinel entered held => simp [state, entered, held, Expectation.captured]
    | otherType entered held other =>
      simp only [state, entered, ↓reduceIte, held, read_eq_none_iff.mpr other]
      rfl

section

variable {s s' : FrameStack ρ}

theorem enter_tidy (covered : s.depth ≤ s.slots.length) : s.enter.Tidy := by
  refine ⟨?_, fun unwound => absurd unwound (Nat.succ_ne_zero s.depth)⟩
  simp only [enter]
  split
  · rw [List.length_append, List.length_singleton]
    omega
  · omega

theorem Tidy.written (tidy : s.Tidy) (entered : s.depth ≠ 0) (slot : Option (Slot ρ))
    (pausing : Bool) : FrameStack.Tidy { s.setSlot (s.depth - 1) slot with pausing } where
  covered := by
    simp only [setSlot, List.length_set]
    exact tidy.covered
  unwound unwound := absurd unwound entered

theorem begin_tidy (tidy : s.Tidy) (begun : s.begin = .ok s') : s'.Tidy := by
  simp only [begin] at begun
  split at begun
  · obtain rfl := Except.ok.inj begun
    exact enter_tidy tidy.covered
  · cases begun

theorem finish_tidy {suspended : Bool} (finished : s.finish = .ok (suspended, s')) : s'.Tidy := by
  simp only [finish] at finished
  split at finished
  · obtain ⟨-, rfl⟩ := Prod.mk.inj (Except.ok.inj finished)
    exact ⟨Nat.zero_le _, fun _ => ⟨rfl, rfl⟩⟩
  · cases finished

theorem leave_tidy {departure : Departure} (tidy : s.Tidy)
    (left : s.leave = .ok (departure, s')) : s'.Tidy := by
  have covered := tidy.covered
  simp only [leave] at left
  split at left
  · cases left
  · next deep =>
    have inside : s.depth - 1 ≠ 0 := by omega
    split at left
    · obtain ⟨-, rfl⟩ := Prod.mk.inj (Except.ok.inj left)
      exact ⟨Nat.le_trans (Nat.sub_le ..) covered, fun unwound => absurd unwound inside⟩
    · obtain ⟨-, rfl⟩ := Prod.mk.inj (Except.ok.inj left)
      refine ⟨?_, fun unwound => absurd unwound inside⟩
      simp only [List.length_set]
      exact Nat.le_trans (Nat.sub_le ..) covered

theorem capture_tidy {marker : UInt32} {locals : Captured ρ} (tidy : s.Tidy)
    (captured : s.capture marker locals = .ok s') : s'.Tidy := by
  simp only [capture] at captured
  split at captured
  · cases captured
  · next entered =>
    split at captured
    · cases captured
    · obtain rfl := Except.ok.inj captured
      exact tidy.written entered _ _

theorem togglePause_tidy (tidy : s.Tidy) (toggled : s.togglePause = .ok s') : s'.Tidy := by
  simp only [togglePause] at toggled
  split at toggled
  · cases toggled
  · next entered =>
    split at toggled
    · obtain rfl := Except.ok.inj toggled
      exact tidy.written entered _ _
    · obtain rfl := Except.ok.inj toggled
      exact tidy.written entered _ _
    · cases toggled

theorem recoverTo_tidy {index : Nat} {marker : UInt32} (tidy : s.Tidy)
    (recovered : s.recoverTo index = .ok (marker, s')) : s'.Tidy := by
  have covered := tidy.covered
  simp only [recoverTo] at recovered
  split at recovered
  · cases recovered
  · obtain ⟨-, rfl⟩ := Prod.mk.inj (Except.ok.inj recovered)
    refine ⟨?_, fun unwound => absurd unwound (Nat.succ_ne_zero index)⟩
    simp only [List.length_append, List.length_take, List.length_replicate]
    omega

end

end FrameStack

namespace FrameStep

def expects : FrameStep ρ → Option CapturedType
  | .state type | .take type => some type
  | .replace content => some content.type
  | _ => none

/-- The conditions under which an operation fails, and its fault. Entering a frame and clearing the
stack are never refused. -/
inductive Refused (s : FrameStack ρ) : FrameStep ρ → FrameFault → Prop where
  | begin : s.depth ≠ 0 → Refused s .begin (.misuse (.beginWound s.depth))
  | finish : s.depth ≠ 1 → Refused s .finish (.misuse (.finishAwayFromEntry s.depth))
  | leave : s.depth < 2 → Refused s .leave (.misuse (.leaveUnmatched s.depth))
  | captureUnwound {marker : UInt32} {locals : Captured ρ} : s.depth = 0 →
      Refused s (.capture marker locals) (.misuse .captureUnwound)
  | captureReserved {marker : UInt32} {locals : Captured ρ} : s.depth ≠ 0 →
      marker = freshMarker ∨ marker = pauseMarker →
      Refused s (.capture marker locals) (.misuse (.captureReserved marker))
  | unreadable {step : FrameStep ρ} {type : CapturedType} {error : FrameError} :
      step.expects = some type → s.Unreadable type error → Refused s step (.error error)
  | toggleUnwound : s.depth = 0 → Refused s .togglePause (.error .notWound)
  | toggleSaved {marker : UInt32} {state : Captured ρ} : s.depth ≠ 0 →
      s.current = some (.saved marker state) →
      Refused s .togglePause (.error (.pauseExpected s.depth marker))
  | recoverTo {index : Nat} : s.depth ≤ index →
      Refused s (.recoverTo index) (.error (.frameNotWound index s.depth))

theorem mapError_map_error_iff {ε ε' β γ : Type} {x : Except ε β} {wrap : ε → ε'} {f : β → γ}
    {fault : ε'} :
    (x.mapError wrap).map f = .error fault ↔ ∃ e, x = .error e ∧ wrap e = fault := by
  cases x <;> simp [Except.map]

theorem mapError_map_of_error {ε ε' β γ : Type} {x : Except ε β} {wrap : ε → ε'} {f : β → γ}
    {e : ε} (failed : x = .error e) : (x.mapError wrap).map f = .error (wrap e) :=
  mapError_map_error_iff.mpr ⟨e, failed, rfl⟩

theorem map_error_iff {ε β γ : Type} {x : Except ε β} {f : β → γ} {e : ε} :
    x.map f = .error e ↔ x = .error e := by
  cases x <;> simp [Except.map]

theorem attempt_error_iff {s : FrameStack ρ} {step : FrameStep ρ} {fault : FrameFault} :
    step.attempt s = .error fault ↔ step.Refused s fault := by
  constructor
  · intro answered
    cases step with
    | begin =>
      obtain ⟨_, failed, rfl⟩ := mapError_map_error_iff.mp answered
      obtain ⟨wound, rfl⟩ := FrameStack.begin_error_iff.mp failed
      exact .begin wound
    | finish =>
      obtain ⟨_, failed, rfl⟩ := mapError_map_error_iff.mp answered
      obtain ⟨away, rfl⟩ := FrameStack.finish_error_iff.mp failed
      exact .finish away
    | leave =>
      obtain ⟨_, failed, rfl⟩ := mapError_map_error_iff.mp answered
      obtain ⟨shallow, rfl⟩ := FrameStack.leave_error_iff.mp failed
      exact .leave shallow
    | capture marker locals =>
      obtain ⟨_, failed, rfl⟩ := mapError_map_error_iff.mp answered
      rcases FrameStack.capture_error_iff.mp failed with
        ⟨unwound, rfl⟩ | ⟨entered, reserved, rfl⟩
      · exact .captureUnwound unwound
      · exact .captureReserved entered reserved
    | state type =>
      obtain ⟨_, failed, rfl⟩ := mapError_map_error_iff.mp answered
      exact .unreadable rfl (FrameStack.state_error_iff.mp failed)
    | replace content =>
      obtain ⟨_, failed, rfl⟩ := mapError_map_error_iff.mp answered
      exact .unreadable rfl (FrameStack.state_error_iff.mp (map_error_iff.mp failed))
    | take type =>
      obtain ⟨_, failed, rfl⟩ := mapError_map_error_iff.mp answered
      exact .unreadable rfl (FrameStack.state_error_iff.mp (map_error_iff.mp failed))
    | togglePause =>
      obtain ⟨_, failed, rfl⟩ := mapError_map_error_iff.mp answered
      rcases FrameStack.togglePause_error_iff.mp failed with
        ⟨unwound, rfl⟩ | ⟨entered, _, _, held, rfl⟩
      · exact .toggleUnwound unwound
      · exact .toggleSaved entered held
    | recoverTo index =>
      obtain ⟨_, failed, rfl⟩ := mapError_map_error_iff.mp answered
      obtain ⟨away, rfl⟩ := FrameStack.recoverTo_error_iff.mp failed
      exact .recoverTo away
    | enter | clear => cases answered
  · intro refused
    cases refused with
    | unreadable expected unreadable =>
      have failed := FrameStack.state_error_iff.mpr unreadable
      cases step <;> simp only [expects, Option.some.injEq, reduceCtorEq] at expected <;>
        simp [attempt, FrameStack.replace, FrameStack.take, expected, failed, Except.map]
    | begin wound => exact mapError_map_of_error (FrameStack.begin_error_iff.mpr ⟨wound, rfl⟩)
    | finish away => exact mapError_map_of_error (FrameStack.finish_error_iff.mpr ⟨away, rfl⟩)
    | leave shallow => exact mapError_map_of_error (FrameStack.leave_error_iff.mpr ⟨shallow, rfl⟩)
    | captureUnwound unwound =>
      exact mapError_map_of_error (FrameStack.capture_error_iff.mpr (.inl ⟨unwound, rfl⟩))
    | captureReserved entered reserved =>
      exact mapError_map_of_error
        (FrameStack.capture_error_iff.mpr (.inr ⟨entered, reserved, rfl⟩))
    | toggleUnwound unwound =>
      exact mapError_map_of_error (FrameStack.togglePause_error_iff.mpr (.inl ⟨unwound, rfl⟩))
    | toggleSaved entered held =>
      exact mapError_map_of_error
        (FrameStack.togglePause_error_iff.mpr (.inr ⟨entered, _, _, held, rfl⟩))
    | recoverTo away =>
      exact mapError_map_of_error (FrameStack.recoverTo_error_iff.mpr ⟨away, rfl⟩)

theorem mapError_map_ok_iff {ε ε' β γ : Type} {x : Except ε β} {wrap : ε → ε'} {f : β → γ}
    {c : γ} : (x.mapError wrap).map f = .ok c ↔ ∃ b, x = .ok b ∧ f b = c := by
  cases x <;> simp [Except.map]

theorem map_ok_iff {ε β γ : Type} {x : Except ε β} {f : β → γ} {c : γ} :
    x.map f = .ok c ↔ ∃ b, x = .ok b ∧ f b = c := by
  cases x <;> simp [Except.map]

theorem attempt_tidy {s s' : FrameStack ρ} {step : FrameStep ρ} {answer : FrameAnswer ρ}
    (tidy : s.Tidy) (answered : step.attempt s = .ok (answer, s')) : s'.Tidy := by
  have pair {β γ : Type} {a b : β} {c d : γ} (same : (a, c) = (b, d)) : c = d :=
    (Prod.mk.inj same).2
  cases step with
  | begin =>
    obtain ⟨_, begun, same⟩ := mapError_map_ok_iff.mp answered
    exact pair same ▸ FrameStack.begin_tidy tidy begun
  | finish =>
    obtain ⟨_, finished, same⟩ := mapError_map_ok_iff.mp answered
    exact pair same ▸ FrameStack.finish_tidy finished
  | enter =>
    obtain rfl := pair (Except.ok.inj answered)
    exact FrameStack.enter_tidy tidy.covered
  | leave =>
    obtain ⟨_, left, same⟩ := mapError_map_ok_iff.mp answered
    exact pair same ▸ FrameStack.leave_tidy tidy left
  | capture marker locals =>
    obtain ⟨_, captured, same⟩ := mapError_map_ok_iff.mp answered
    exact pair same ▸ FrameStack.capture_tidy tidy captured
  | state type =>
    obtain ⟨_, -, same⟩ := mapError_map_ok_iff.mp answered
    exact pair same ▸ tidy
  | replace content =>
    obtain ⟨_, succeeded, same⟩ := mapError_map_ok_iff.mp answered
    obtain ⟨_, read, rfl⟩ := map_ok_iff.mp succeeded
    exact pair same ▸ tidy.written (FrameStack.entered_of_state read) _ s.pausing
  | take type =>
    obtain ⟨_, succeeded, same⟩ := mapError_map_ok_iff.mp answered
    obtain ⟨_, read, rfl⟩ := map_ok_iff.mp succeeded
    exact pair same ▸ tidy.written (FrameStack.entered_of_state read) _ s.pausing
  | togglePause =>
    obtain ⟨_, toggled, same⟩ := mapError_map_ok_iff.mp answered
    exact pair same ▸ FrameStack.togglePause_tidy tidy toggled
  | recoverTo index =>
    obtain ⟨_, recovered, same⟩ := mapError_map_ok_iff.mp answered
    exact pair same ▸ FrameStack.recoverTo_tidy tidy recovered
  | clear =>
    obtain rfl := pair (Except.ok.inj answered)
    exact ⟨Nat.le_refl _, fun _ => ⟨rfl, rfl⟩⟩

def performAll : List (FrameStep ρ) → FrameStack ρ →
    List (Except Halt (FrameAnswer ρ)) × FrameStack ρ
  | [], s => ([], s)
  | step :: rest, s =>
    match step.perform s with
    | .ok answer s' =>
      let later := performAll rest s'
      (.ok answer :: later.1, later.2)
    | .error halt s' =>
      let later := performAll rest s'
      (.error halt :: later.1, later.2)

theorem performAll_eq {s : FrameStack ρ} (tidy : s.Tidy) (steps : List (FrameStep ρ)) :
    performAll steps s = ((runAll steps s).1.map (·.mapError Halt.fault), (runAll steps s).2) ∧
      (runAll steps s).2.Tidy := by
  induction steps generalizing s with
  | nil => exact ⟨rfl, tidy⟩
  | cons step rest ih =>
    simp only [performAll, runAll, run, perform_eq tidy.covered]
    cases answered : step.attempt s with
    | ok result =>
      obtain ⟨same, tidied⟩ := ih (attempt_tidy tidy answered)
      simp [FrameAccess.settled, same, tidied]
    | error fault =>
      obtain ⟨same, tidied⟩ := ih tidy
      simp [FrameAccess.settled, same, tidied]

/-- From an empty stack, after any operations: no access of any operation has been outside the
slots, and no subtraction below zero. The stack is tidy, and an operation now succeeds, or it is
refused with the one fault that its conditions give and all its accesses together have changed
nothing. -/
theorem failures_are_stated_and_atomic (steps : List (FrameStep ρ)) :
    let past := runAll steps ({} : FrameStack ρ)
    performAll steps {} = (past.1.map (·.mapError Halt.fault), past.2) ∧ past.2.Tidy ∧
      ∀ step : FrameStep ρ,
        (∃ answer s', step.perform past.2 = .ok answer s' ∧ step.run past.2 = (.ok answer, s') ∧
          s'.Tidy ∧ ∀ fault, ¬ step.Refused past.2 fault) ∨
        ∃ fault, step.perform past.2 = .error (.fault fault) past.2 ∧
          step.run past.2 = (.error fault, past.2) ∧
          ∀ other, step.Refused past.2 other ↔ other = fault := by
  intro past
  have start : ({} : FrameStack ρ).Tidy := ⟨Nat.le_refl 0, fun _ => ⟨rfl, rfl⟩⟩
  obtain ⟨same, tidy⟩ := performAll_eq start steps
  refine ⟨same, tidy, fun step => ?_⟩
  rw [perform_eq tidy.covered]
  cases answered : step.attempt past.2 with
  | ok result =>
    refine .inl ⟨result.1, result.2, rfl, by simp only [run, answered],
      attempt_tidy tidy answered, ?_⟩
    intro fault refused
    rw [attempt_error_iff.mpr refused] at answered
    cases answered
  | error fault =>
    refine .inr ⟨fault, rfl, by simp only [run, answered], fun other => ?_⟩
    rw [← attempt_error_iff, answered, Except.error.injEq, eq_comm]

end FrameStep

end ResumableTasks
