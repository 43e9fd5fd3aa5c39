import Mathlib.Logic.Function.Iterate
import ResumableTasks.Proofs.AtomicFailure
import ResumableTasks.Proofs.ReachedSentinel
/-!
What is still held above a live frame. A rewind that turns back before it came to the sentinel
leaves the slots further in as they are, and nothing but entering those frames empties them, so a
call made later finds there what belongs to the earlier suspension. A resumption is what a stack
held when it was last wound or came out of a suspension, and the greatest depth since then.
-/
namespace ResumableTasks

variable {ρ : Type}

structure Resumption (ρ : Type) where
  held : Nat → Option (Slot ρ) := fun _ => none
  reach : Nat := 0

namespace Resumption

/-- Nothing of the earlier suspension lies further in than the greatest depth since. -/
def Cleared (r : Resumption ρ) : Prop := ∀ i, r.reach ≤ i → r.held i = none

def next (r : Resumption ρ) (was now : FrameStack ρ) : Resumption ρ :=
  if was.depth = 0 ∨ was.pausing then ⟨now.slotAt, now.depth⟩
  else { r with reach := max r.reach now.depth }

end Resumption

namespace FrameStep

/-- The operations by which a task enters, leaves and suspends its frames. -/
def Cyclic : FrameStep ρ → Prop
  | .begin | .finish | .enter | .leave | .capture _ _ | .togglePause => True
  | .state _ | .replace _ | .take _ | .recoverTo _ | .clear => False

instance : DecidablePred (Cyclic (ρ := ρ))
  | .begin | .finish | .enter | .leave | .capture _ _ | .togglePause => .isTrue trivial
  | .state _ | .replace _ | .take _ | .recoverTo _ | .clear => .isFalse id

def resumption : List (FrameStep ρ) → FrameStack ρ → Resumption ρ → Resumption ρ
  | [], _, r => r
  | step :: rest, s, r => resumption rest (step.run s).2 (r.next s (step.run s).2)

end FrameStep

namespace FrameStack

variable {s s' : FrameStack ρ}

def Marked (s : FrameStack ρ) : Prop := ∀ i slot, s.slotAt i = some slot → slot.marker ≠ freshMarker

theorem Marked.markerAt_eq_fresh_iff (marked : s.Marked) (i : Nat) :
    s.markerAt i = freshMarker ↔ s.slotAt i = none := by
  unfold markerAt
  cases there : s.slotAt i with
  | none => simp
  | some slot => simpa using marked i slot there

theorem Marked.congr (marked : s.Marked)
    (slots : ∀ i slot, s'.slotAt i = some slot → s.slotAt i = some slot) : s'.Marked :=
  fun i slot there => marked i slot (slots i slot there)

theorem slotAt_setSlot_some {index i : Nat} {slot there : Slot ρ}
    (found : (s.setSlot index (some slot)).slotAt i = some there) :
    there = slot ∨ s.slotAt i = some there := by
  simp only [setSlot, slotAt, List.getElem?_set] at found ⊢
  split at found
  · split at found
    · exact .inl (Option.some.inj found).symm
    · simp at found
  · exact .inr found

theorem Marked.write (marked : s.Marked) {slot : Slot ρ} (legal : slot.marker ≠ freshMarker)
    (index : Nat) (pausing : Bool) :
    Marked { s.setSlot index (some slot) with pausing } := by
  intro i there found
  rcases slotAt_setSlot_some (s := s) found with rfl | before
  · exact legal
  · exact marked i there before

theorem Marked.erase (marked : s.Marked) (index : Nat) (pausing : Bool) :
    Marked { s.setSlot index none with pausing } := by
  refine marked.congr fun i slot found => ?_
  have erased := s.slotAt_setSlot_none index i
  change (s.setSlot index none).slotAt i = some slot at found
  rw [erased] at found
  split at found
  · cases found
  · exact found

theorem enter_iterate (s : FrameStack ρ) (n : Nat) :
    (enter^[n] s).depth = s.depth + n ∧ (enter^[n] s).slotAt = s.slotAt := by
  induction n with
  | zero => exact ⟨rfl, rfl⟩
  | succ n ih =>
    obtain ⟨depth, slots⟩ := ih
    rw [Function.iterate_succ_apply']
    constructor
    · exact congrArg (· + 1) depth
    · exact (funext (enter^[n] s).slotAt_enter).trans slots

theorem marker_enter_iterate (s : FrameStack ρ) (n : Nat) :
    (enter^[n + 1] s).marker = s.markerAt (s.depth + n) := by
  obtain ⟨depth, slots⟩ := s.enter_iterate n
  rw [Function.iterate_succ_apply', marker_enter, depth]
  simp only [markerAt, slots]

theorem Marked.enter_fresh_iff (marked : s.Marked) :
    (∀ n, (enter^[n + 1] s).marker = freshMarker) ↔ ∀ i, s.depth ≤ i → s.slotAt i = none := by
  constructor
  · intro fresh i above
    obtain ⟨n, rfl⟩ := Nat.exists_eq_add_of_le above
    rw [← marked.markerAt_eq_fresh_iff, ← s.marker_enter_iterate]
    exact fresh n
  · intro empty n
    rw [s.marker_enter_iterate, marked.markerAt_eq_fresh_iff]
    exact empty _ (Nat.le_add_right _ _)

end FrameStack

/-- A live stack and the resumption that it goes on from. Above the current frame, the frames
entered since then are empty and the others hold what they held. -/
structure Swept (r : Resumption ρ) (s : FrameStack ρ) : Prop where
  reached : s.depth ≤ r.reach
  above : ∀ i, s.depth ≤ i → s.slotAt i = if i < r.reach then none else r.held i

namespace Swept

variable {r : Resumption ρ} {s s' : FrameStack ρ}

theorem start (s : FrameStack ρ) : Swept ⟨s.slotAt, s.depth⟩ s where
  reached := Nat.le_refl _
  above _ further := (if_neg (Nat.not_lt.mpr further)).symm

theorem cleared_iff (swept : Swept r s) :
    (∀ i, s.depth ≤ i → s.slotAt i = none) ↔ r.Cleared := by
  constructor
  · intro empty i beyond
    have there := swept.above i (Nat.le_trans swept.reached beyond)
    rw [empty i (Nat.le_trans swept.reached beyond), if_neg (Nat.not_lt.mpr beyond)] at there
    exact there.symm
  · intro cleared i above
    rw [swept.above i above]
    split
    · rfl
    · next beyond => exact cleared i (Nat.not_lt.mp beyond)

theorem enter (swept : Swept r s) :
    Swept { r with reach := max r.reach s.enter.depth } s.enter where
  reached := Nat.le_max_right _ _
  above i further := by
    have nested : s.depth < i := further
    rw [s.slotAt_enter, swept.above i (Nat.le_of_lt nested)]
    have passed : i < max r.reach s.enter.depth ↔ i < r.reach := by
      have depth : s.enter.depth = s.depth + 1 := rfl
      omega
    simp only [passed]

theorem within (swept : Swept r s) (depth : s'.depth ≤ s.depth)
    (left : ∀ i, s'.depth ≤ i → i < s.depth → s'.slotAt i = none)
    (same : ∀ i, s.depth ≤ i → s'.slotAt i = s.slotAt i) :
    Swept { r with reach := max r.reach s'.depth } s' where
  reached := Nat.le_max_right _ _
  above i further := by
    have unchanged : max r.reach s'.depth = r.reach :=
      Nat.max_eq_left (Nat.le_trans depth swept.reached)
    rw [unchanged]
    by_cases above : s.depth ≤ i
    · rw [same i above, swept.above i above]
    · have inside : i < s.depth := Nat.not_le.mp above
      rw [left i further inside, if_pos (Nat.lt_of_lt_of_le inside swept.reached)]

end Swept

inductive Cycled (s : FrameStack ρ) : FrameStack ρ → Prop where
  | begun : s.depth = 0 → Cycled s { s with pausing := false }.enter
  | finished : Cycled s { slots := if s.pausing then s.slots else [] }
  | entered : Cycled s s.enter
  | handedOn : s.pausing = true →
      Cycled s { s with depth := s.depth - 1, marker := s.markerAt (s.depth - 2) }
  | left {s' : FrameStack ρ} : s.pausing = false → s'.depth = s.depth - 1 →
      (∀ i, s'.slotAt i = if s.depth ≤ i + 2 ∧ i < s.depth then none else s.slotAt i) →
      Cycled s s'
  | suspended (slot : Slot ρ) : slot.marker ≠ freshMarker →
      Cycled s { s.setSlot (s.depth - 1) (some slot) with pausing := true }
  | woken : Cycled s { s.setSlot (s.depth - 1) none with pausing := false }

namespace FrameStack

variable {s s' : FrameStack ρ}

theorem leave_cycled {departure : Departure} (left : s.leave = .ok (departure, s')) :
    Cycled s s' := by
  have nested : 2 ≤ s.depth := by
    by_contra shallow
    rw [leave_error_iff.mpr ⟨Nat.not_le.mp shallow, rfl⟩] at left
    cases left
  cases pausing : s.pausing with
  | true =>
    have deep : ¬ s.depth < 2 := Nat.not_lt.mpr nested
    simp only [leave, deep, ↓reduceIte, pausing] at left
    obtain ⟨-, rfl⟩ := Prod.mk.inj (Except.ok.inj left)
    have handedOn := Cycled.handedOn pausing
    rwa [pausing] at handedOn
  | false =>
    obtain ⟨_, changed, live, -, depth, slots⟩ := leave_live nested pausing
    obtain ⟨-, rfl⟩ := Prod.mk.inj (Except.ok.inj (left.symm.trans live))
    exact .left pausing depth slots

theorem capture_cycled {marker : UInt32} {locals : Captured ρ}
    (captured : s.capture marker locals = .ok s') : Cycled s s' := by
  simp only [capture] at captured
  split at captured
  · cases captured
  · split at captured
    · cases captured
    · next unreserved =>
      obtain rfl := Except.ok.inj captured
      exact .suspended (.saved marker locals) (not_or.mp unreserved).1

theorem togglePause_cycled (toggled : s.togglePause = .ok s') : Cycled s s' := by
  simp only [togglePause] at toggled
  split at toggled
  · cases toggled
  · split at toggled
    · obtain rfl := Except.ok.inj toggled
      have legal : pauseMarker ≠ freshMarker := by decide
      exact .suspended .pause legal
    · obtain rfl := Except.ok.inj toggled
      exact .woken
    · cases toggled

end FrameStack

theorem FrameStep.attempt_cycled {s s' : FrameStack ρ} {step : FrameStep ρ}
    {answer : FrameAnswer ρ} (cyclic : step.Cyclic) (answered : step.attempt s = .ok (answer, s')) :
    Cycled s s' := by
  have pair {β γ : Type} {a b : β} {c d : γ} (same : (a, c) = (b, d)) : c = d :=
    (Prod.mk.inj same).2
  cases step with
  | begin =>
    obtain ⟨_, begun, same⟩ := mapError_map_ok_iff.mp answered
    simp only [FrameStack.begin] at begun
    split at begun
    · next unwound =>
      obtain rfl := Except.ok.inj begun
      exact pair same ▸ .begun unwound
    · cases begun
  | finish =>
    obtain ⟨_, finished, same⟩ := mapError_map_ok_iff.mp answered
    simp only [FrameStack.finish] at finished
    split at finished
    · obtain rfl := Except.ok.inj finished
      exact pair same ▸ .finished
    · cases finished
  | enter =>
    obtain rfl := pair (Except.ok.inj answered)
    exact .entered
  | leave =>
    obtain ⟨_, left, same⟩ := mapError_map_ok_iff.mp answered
    exact pair same ▸ FrameStack.leave_cycled left
  | capture marker locals =>
    obtain ⟨_, captured, same⟩ := mapError_map_ok_iff.mp answered
    exact pair same ▸ FrameStack.capture_cycled captured
  | togglePause =>
    obtain ⟨_, toggled, same⟩ := mapError_map_ok_iff.mp answered
    exact pair same ▸ FrameStack.togglePause_cycled toggled
  | state | replace | take | recoverTo | clear => exact cyclic.elim

namespace Cycled

variable {r : Resumption ρ} {s s' : FrameStack ρ}

theorem marked (cycled : Cycled s s') (marked : s.Marked) : s'.Marked := by
  cases cycled with
  | begun _ | entered =>
    exact marked.congr fun i slot there => (FrameStack.slotAt_enter _ i).symm.trans there
  | finished =>
    cases s.pausing with
    | true => exact marked.congr fun i slot there => there
    | false => exact fun i slot there => by simp [FrameStack.slotAt] at there
  | handedOn => exact marked.congr fun i slot there => there
  | left _ _ slots =>
    refine marked.congr fun i slot there => ?_
    rw [slots i] at there
    split at there
    · cases there
    · exact there
  | suspended slot legal => exact marked.write legal _ _
  | woken => exact marked.erase _ _

theorem swept (cycled : Cycled s s') (swept : 1 ≤ s.depth → s.pausing = false → Swept r s)
    (wound : 1 ≤ s'.depth) (live : s'.pausing = false) : Swept (r.next s s') s' := by
  unfold Resumption.next
  split
  · exact .start s'
  · next on =>
    obtain ⟨entered, going⟩ := not_or.mp on
    have before := swept (Nat.pos_of_ne_zero entered) (Bool.not_eq_true _ ▸ going)
    cases cycled with
    | begun unwound => exact absurd unwound entered
    | finished => cases wound
    | entered => exact before.enter
    | handedOn pausing => exact absurd pausing going
    | left _ depth slots =>
      refine before.within (by omega) (fun i caller inside => ?_) (fun i above => ?_)
      · rw [slots i, if_pos (by omega)]
      · rw [slots i, if_neg (by omega)]
    | suspended slot legal => cases live
    | woken =>
      refine before.within (Nat.le_refl _) (fun i own inside => ?_) (fun i above => ?_)
      · exact absurd inside (Nat.not_lt.mpr own)
      · exact s.slotAt_setSlot_above above (Nat.pos_of_ne_zero entered) none

end Cycled

structure Tracked (r : Resumption ρ) (s : FrameStack ρ) : Prop where
  marked : s.Marked
  swept : 1 ≤ s.depth → s.pausing = false → Swept r s

namespace FrameStep

variable {r : Resumption ρ} {s : FrameStack ρ}

theorem run_tracked {step : FrameStep ρ} (cyclic : step.Cyclic) (tracked : Tracked r s) :
    Tracked (r.next s (step.run s).2) (step.run s).2 := by
  unfold run
  cases answered : step.attempt s with
  | ok result =>
    have cycled : Cycled s result.2 := attempt_cycled cyclic answered
    exact ⟨cycled.marked tracked.marked, cycled.swept tracked.swept⟩
  | error fault =>
    refine ⟨tracked.marked, fun (wound : 1 ≤ s.depth) (live : s.pausing = false) => ?_⟩
    have before := tracked.swept wound live
    have on : ¬ (s.depth = 0 ∨ s.pausing = true) := by simp [Nat.ne_of_gt wound, live]
    simp only [Resumption.next, if_neg on, Nat.max_eq_left before.reached]
    exact before

theorem runAll_tracked {steps : List (FrameStep ρ)} (cyclic : ∀ step ∈ steps, step.Cyclic)
    (tracked : Tracked r s) : Tracked (resumption steps s r) (runAll steps s).2 := by
  induction steps generalizing r s with
  | nil => exact tracked
  | cons step rest ih =>
    have own := run_tracked (cyclic step List.mem_cons_self) tracked
    exact ih (fun later member => cyclic later (List.mem_cons_of_mem step member)) own

/-- The exact condition under which a live frame shows nothing of an earlier suspension to the
frames entered from it, after any operations by which frames are entered, left and suspended: of the
slots held when the stack was last wound, or came out of a suspension, none lies further in than the
greatest depth since then. This is also when nothing is held above the frame. -/
theorem fresh_from_live_frame_iff {steps : List (FrameStep ρ)}
    (cyclic : ∀ step ∈ steps, step.Cyclic) :
    let s := (runAll steps ({} : FrameStack ρ)).2
    let r := resumption steps {} {}
    1 ≤ s.depth → s.pausing = false →
      ((∀ n, (FrameStack.enter^[n + 1] s).marker = freshMarker) ↔ r.Cleared) ∧
      ((∀ i, s.depth ≤ i → s.slotAt i = none) ↔ r.Cleared) := by
  intro s r wound live
  have start : Tracked {} ({} : FrameStack ρ) := by
    constructor
    · intro i slot there
      simp [FrameStack.slotAt] at there
    · intro wound _
      cases wound
  obtain ⟨marked, swept⟩ := runAll_tracked cyclic start
  have cleared := (swept wound live).cleared_iff
  exact ⟨marked.enter_fresh_iff.trans cleared, cleared⟩

def suspendsTwoIn : List (FrameStep Unit) :=
  [.begin, .enter, .enter, .togglePause, .leave, .capture 2 (.value .unit), .leave,
    .capture 1 (.value .unit), .finish]

theorem fresh_after_whole_rewind :
    let steps := suspendsTwoIn ++ [.begin, .enter, .enter, .togglePause, .leave]
    let s := (runAll steps ({} : FrameStack Unit)).2
    s.depth = 2 ∧ s.pausing = false ∧
      ∀ n, (FrameStack.enter^[n + 1] s).marker = freshMarker := by
  have cyclic : ∀ step ∈ suspendsTwoIn ++ [.begin, .enter, .enter, .togglePause, .leave],
      step.Cyclic := by
    decide
  refine ⟨rfl, rfl, (fresh_from_live_frame_iff cyclic (by decide) rfl).1.mpr ?_⟩
  intro i beyond
  obtain ⟨j, rfl⟩ : ∃ j, i = j + 3 := ⟨i - 3, (Nat.sub_add_cancel beyond).symm⟩
  rfl

/-- A rewind that turns back one frame before the sentinel leaves it there. A first call then goes
on as ever, and the call that it makes is taken for the primitive that suspended. -/
theorem stale_after_early_return :
    let steps := suspendsTwoIn ++ [.begin, .enter, .leave]
    let s := (runAll steps ({} : FrameStack Unit)).2
    (∀ step ∈ steps, step.Cyclic) ∧ s.depth = 1 ∧ s.pausing = false ∧ s.marker = freshMarker ∧
      s.enter.marker = freshMarker ∧ s.enter.enter.marker = pauseMarker := by
  decide

end FrameStep

end ResumableTasks
