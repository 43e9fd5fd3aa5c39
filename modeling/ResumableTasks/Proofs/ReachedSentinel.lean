import ResumableTasks.Proofs.ResumableStack
/-!
Whether a run that resumes a task comes to the point where the task was suspended. The run is to
enter every frame that holds something again, down to the sentinel, and a primitive is to take the
sentinel away; a run that comes back without that is to be reported. All that is looked at when a
run ends is whether something is still held, so what decides is how the sentinel went. The moves of
a run are the frames that it enters and recovers while no suspension is under way, each with the
stack that it found.
-/
namespace ResumableTasks

variable {ρ ε α : Type}

/-- A move to another frame, with the stack that it found; a recovery also has the stack that it
left. -/
inductive Move (ρ : Type) where
  | primitive (found : FrameStack ρ)
  | call (found : FrameStack ρ)
  | recovery (found left : FrameStack ρ)

namespace Move

/-- A primitive takes the sentinel away. -/
def Wakes : Move ρ → Prop
  | .primitive found => found.slotAt found.depth = some .pause
  | .call _ | .recovery _ _ => False

/-- The sentinel goes without a primitive: a call is made in its frame, which empties the frame when
it is left, or a recovery drops the frame. -/
def Loses : Move ρ → Prop
  | .primitive _ => False
  | .call found => found.slotAt found.depth = some .pause
  | .recovery found left => ∃ i, left.depth ≤ i ∧ found.slotAt i = some .pause

/-- The frame is entered while it holds the slot; the sentinel's frame by a primitive only. -/
def Reenters (index : Nat) (slot : Slot ρ) : Move ρ → Prop
  | .primitive found => found.depth = index ∧ found.slotAt index = some slot
  | .call found => found.depth = index ∧ found.slotAt index = some slot ∧ slot ≠ .pause
  | .recovery _ _ => False

def Woken (log : List (Move ρ)) : Prop := ∃ m ∈ log, m.Wakes

def Lost (log : List (Move ρ)) : Prop := ∃ m ∈ log, m.Loses

def Reentered (held : Nat → Option (Slot ρ)) (log : List (Move ρ)) (index : Nat) : Prop :=
  ∀ slot, held index = some slot → ∃ m ∈ log, m.Reenters index slot

def Skipped (held : Nat → Option (Slot ρ)) (log : List (Move ρ)) : Prop :=
  ∃ index, 1 ≤ index ∧ ¬ Reentered held log index

theorem Reenters.wakes {m : Move ρ} {index : Nat} (reenters : m.Reenters index .pause) :
    m.Wakes := by
  cases m with
  | primitive found =>
    obtain ⟨rfl, there⟩ := reenters
    exact there
  | call found => exact absurd rfl reenters.2.2
  | recovery found left => exact reenters.elim

theorem woken_append (log : List (Move ρ)) (m : Move ρ) :
    Woken (log ++ [m]) ↔ Woken log ∨ m.Wakes := by
  simp [Woken, or_and_right, exists_or]

theorem lost_append (log : List (Move ρ)) (m : Move ρ) :
    Lost (log ++ [m]) ↔ Lost log ∨ m.Loses := by
  simp [Lost, or_and_right, exists_or]

theorem Reentered.append {held : Nat → Option (Slot ρ)} {log : List (Move ρ)} {index : Nat}
    (reentered : Reentered held log index) (later : List (Move ρ)) :
    Reentered held (log ++ later) index := by
  intro slot there
  obtain ⟨m, made, reenters⟩ := reentered slot there
  exact ⟨m, List.mem_append_left later made, reenters⟩

end Move

namespace Context

def callMoves (inner : Context ρ ε → List (Move ρ)) (cx : Context ρ ε) : List (Move ρ) :=
  (if cx.frames.pausing then [] else [.call cx.frames]) ++
    inner { cx with frames := cx.frames.enter }

def invokeFrameMoves (inner : Context ρ ε → List (Move ρ)) (given : ρ) (cx : Context ρ ε) :
    List (Move ρ) :=
  match if cx.frames.rewinding then cx.frames.take .routine else .ok (given, cx.frames) with
  | .error _ => []
  | .ok (target, frames) => callMoves inner { cx with frames, object := target }

def pauseMoves (cx : Context ρ ε) : List (Move ρ) :=
  if cx.frames.pausing then [] else [.primitive cx.frames]

def recoveryMoves (cx : Context ρ ε) (trace : CallTrace) : List (Move ρ) :=
  match cx.recoverDepth trace with
  | (.ok _, after) => if cx.frames.pausing then [] else [.recovery cx.frames after.frames]
  | (.error _, _) => []

end Context

def Op.Indirect : Op ρ ε → Prop
  | .frameStep _ => False
  | _ => True

def Op.moves (cx : Context ρ ε) : Op ρ ε → List (Move ρ)
  | .pause _ => cx.pauseMoves
  | .recoverDepth trace => cx.recoveryMoves trace
  | _ => []

namespace Script

def Indirect : Script ρ ε → Prop
  | .done _ => True
  | .act op next => op.Indirect ∧ ∀ reply, (next reply).Indirect
  | .call body next => (body ()).Indirect ∧ ∀ reply, (next reply).Indirect
  | .invoke _ next => ∀ reply, (next reply).Indirect

def moves (execute : Context ρ ε → Ending Unit × Context ρ ε)
    (inner : Context ρ ε → List (Move ρ)) : Script ρ ε → Context ρ ε → List (Move ρ)
  | .done _, _ => []
  | .act op next, cx =>
    let performed := op.perform execute cx
    op.moves cx ++ (next performed.1).moves execute inner performed.2
  | .call body next, cx =>
    let called := Context.call (fun cx => (body ()).exec execute cx) cx
    Context.callMoves (fun cx => (body ()).moves execute inner cx) cx ++
      (next called.1).moves execute inner called.2
  | .invoke object next, cx =>
    let called := Context.invoke execute object cx
    Context.callMoves (Context.invokeFrameMoves inner object) cx ++
      (next called.1).moves execute inner called.2

def executeMoves (enter : ρ → Script ρ ε) : Nat → Context ρ ε → List (Move ρ)
  | 0, _ => []
  | depth + 1, cx =>
    (enter cx.object).moves (execute enter depth) (executeMoves enter depth) cx

end Script

def World.moves (w : World ρ ε) (enter : ρ → Script ρ ε) (depth task : Nat) : List (Move ρ) :=
  match w.entry task with
  | none => []
  | some cx => Script.executeMoves enter depth cx

namespace FrameStack

theorem slotAt_setSlot_none (s : FrameStack ρ) (index i : Nat) :
    (s.setSlot index none).slotAt i = if i = index then none else s.slotAt i := by
  simp only [setSlot, slotAt]
  by_cases here : i = index
  · simp only [here, List.getElem?_set, ↓reduceIte]
    split <;> rfl
  · simp [here, List.getElem?_set_ne (Ne.symm here)]

theorem leave_live {s : FrameStack ρ} (nested : 2 ≤ s.depth) (live : s.pausing = false) :
    ∃ departure changed, s.leave = .ok (departure, changed) ∧ changed.pausing = false ∧
      changed.depth = s.depth - 1 ∧
      ∀ i, changed.slotAt i = if s.depth ≤ i + 2 ∧ i < s.depth then none else s.slotAt i := by
  have deep : ¬ s.depth < 2 := by omega
  simp only [leave, deep, ↓reduceIte, live, Bool.false_eq_true]
  refine ⟨_, _, rfl, rfl, rfl, fun i => ?_⟩
  show ((s.setSlot (s.depth - 1) none).setSlot (s.depth - 2) none).slotAt i = _
  rw [slotAt_setSlot_none, slotAt_setSlot_none]
  split
  · rw [if_pos (by omega)]
  · split
    · rw [if_pos (by omega)]
    · rw [if_neg (by omega)]

theorem recoverTo_ok {s s' : FrameStack ρ} {index : Nat} {marker : UInt32}
    (recovered : s.recoverTo index = .ok (marker, s')) :
    index < s.depth ∧ s'.depth = index + 1 ∧ s'.pausing = s.pausing ∧
      ∀ i, s'.slotAt i = if i ≤ index then s.slotAt i else none := by
  simp only [recoverTo] at recovered
  split at recovered
  · simp at recovered
  · next wound =>
    obtain ⟨-, rfl⟩ := Prod.mk.inj (Except.ok.inj recovered)
    refine ⟨Nat.lt_of_not_le wound, rfl, rfl, fun i => ?_⟩
    simp only [slotAt, List.getElem?_append, List.length_take, List.getElem?_take,
      List.getElem?_replicate]
    by_cases there : i < s.slots.length
    · by_cases kept : i ≤ index
      · rw [if_pos (by omega), if_pos (by omega), if_pos kept]
      · rw [if_neg (by omega), if_neg kept]
        split <;> rfl
    · have gone : s.slots[i]? = none := List.getElem?_eq_none (by omega)
      rw [if_neg (by omega), if_neg (by omega), gone]
      split <;> rfl

theorem retained_eq_zero_iff (s : FrameStack ρ) : s.retained = 0 ↔ ∀ i, s.slotAt i = none := by
  rw [retained, Slot.blank_iff_countP_zero]
  constructor
  · intro blank i
    rw [slotAt]
    cases found : s.slots[i]? with
    | none => rfl
    | some slot => rw [blank slot (List.mem_of_getElem? found), Option.join_some]
  · intro empty slot member
    obtain ⟨i, found⟩ := List.mem_iff_getElem?.mp member
    have here := empty i
    rwa [slotAt, found, Option.join_some] at here

theorem togglePause_enter (s : FrameStack ρ) :
    s.enter.togglePause = match s.slotAt s.depth with
      | none => .ok { s.enter.setSlot s.depth (some .pause) with pausing := true }
      | some .pause => .ok { s.enter.setSlot s.depth none with pausing := false }
      | some (.saved marker _) => .error (.pauseExpected s.enter.depth marker) := by
  have current : s.enter.current = s.slotAt s.depth := s.slotAt_enter s.depth
  have nested : s.enter.depth ≠ 0 := Nat.succ_ne_zero s.depth
  simp only [togglePause, current, nested, ↓reduceIte]
  rfl

end FrameStack

structure StackedAt (held : Nat → Option (Slot ρ)) (k : Nat) : Prop where
  inside : 1 ≤ k
  saved : ∀ i < k, (held i).any Slot.isSaved
  sentinel : held k = some .pause
  beyond : ∀ i, k < i → held i = none

theorem Stacked.exists_at {held : Nat → Option (Slot ρ)} (stacked : Stacked held) :
    ∃ k, StackedAt held k := by
  obtain ⟨k, inside, saved, sentinel, beyond⟩ := stacked
  exact ⟨k, inside, saved, sentinel, beyond⟩

section

variable {held : Nat → Option (Slot ρ)} {k : Nat}

theorem StackedAt.eq_of_pause (stacked : StackedAt held k) {i : Nat}
    (pause : held i = some .pause) : i = k := by
  rcases Nat.lt_trichotomy i k with before | here | after
  · have saved := stacked.saved i before
    simp [pause, Slot.isSaved] at saved
  · exact here
  · simp [stacked.beyond i after] at pause

theorem StackedAt.ne_pause (stacked : StackedAt held k) {i : Nat} (before : i < k) {slot : Slot ρ}
    (there : held i = some slot) : slot ≠ .pause := by
  rintro rfl
  exact absurd (stacked.eq_of_pause there) (Nat.ne_of_lt before)

open Move

theorem StackedAt.skipped (stacked : StackedAt held k) {log : List (Move ρ)}
    (unwoken : ¬ Woken log) : Skipped held log := by
  refine ⟨k, stacked.inside, fun reentered => ?_⟩
  obtain ⟨m, made, reenters⟩ := reentered .pause stacked.sentinel
  exact unwoken ⟨m, made, reenters.wakes⟩

/-- The stack of a task that is live in a run with these moves. Slots only ever go. As long as no
move took the sentinel, it is further in than the frame that is current; after that nothing is
further in. The frames on the way to the sentinel are entered in their order. -/
structure Rewinding (held : Nat → Option (Slot ρ)) (k : Nat) (log : List (Move ρ))
    (s : FrameStack ρ) : Prop where
  shrunk : ∀ i, s.slotAt i = none ∨ s.slotAt i = held i
  kept : ¬ Woken log → ¬ Lost log → s.slotAt k = some .pause ∧ s.depth ≤ k
  gone : Woken log ∨ Lost log → ∀ i, s.depth ≤ i → s.slotAt i = none
  ahead : s.slotAt k = some .pause → ∀ i, 1 ≤ i → i < k →
    s.depth ≤ i ∧ s.slotAt i = held i ∨ Reentered held log i

namespace Rewinding

variable {log : List (Move ρ)} {s s' : FrameStack ρ}

theorem eq_of_pause (rewinding : Rewinding held k log s) (stacked : StackedAt held k) {i : Nat}
    (pause : s.slotAt i = some .pause) : i = k := by
  rcases rewinding.shrunk i with empty | same
  · simp [empty] at pause
  · exact stacked.eq_of_pause (same.symm.trans pause)

theorem empty_beyond (rewinding : Rewinding held k log s) (stacked : StackedAt held k) {i : Nat}
    (beyond : k < i) : s.slotAt i = none :=
  (rewinding.shrunk i).elim id fun same => same.trans (stacked.beyond i beyond)

theorem enter (rewinding : Rewinding held k log s) (stacked : StackedAt held k) {m : Move ρ}
    (reenters : ∀ slot, s.slotAt s.depth = some slot → slot ≠ .pause → m.Reenters s.depth slot)
    (asleep : ¬ m.Wakes) (loses : s.slotAt s.depth = some .pause ↔ m.Loses) :
    Rewinding held k (log ++ [m]) s.enter := by
  have slots := s.slotAt_enter
  refine ⟨fun i => by rw [slots]; exact rewinding.shrunk i, ?_, ?_, ?_⟩
  · intro unwoken unlost
    rw [woken_append, not_or] at unwoken
    rw [lost_append, not_or] at unlost
    obtain ⟨there, deep⟩ := rewinding.kept unwoken.1 unlost.1
    have elsewhere : s.depth ≠ k := fun here => unlost.2 (loses.mp (here ▸ there))
    exact ⟨(slots k).trans there, Nat.lt_of_le_of_ne deep elsewhere⟩
  · intro passed i further
    replace further : s.depth + 1 ≤ i := further
    rw [slots]
    rw [woken_append, lost_append] at passed
    rcases passed with (woken | wakes) | (lost | now)
    · exact rewinding.gone (.inl woken) i (Nat.le_of_succ_le further)
    · exact absurd wakes asleep
    · exact rewinding.gone (.inr lost) i (Nat.le_of_succ_le further)
    · have here := rewinding.eq_of_pause stacked (loses.mpr now)
      exact rewinding.empty_beyond stacked (by omega)
  · intro there i entered before
    rw [slots] at there ⊢
    rcases rewinding.ahead there i entered before with ⟨deep, same⟩ | reentered
    · rcases Nat.eq_or_lt_of_le deep with rfl | further
      · exact .inr fun slot holds => ⟨m, by simp,
          reenters slot (same.trans holds) (stacked.ne_pause before holds)⟩
      · exact .inl ⟨further, same⟩
    · exact .inr (reentered.append _)

theorem empty (rewinding : Rewinding held k log s) (shallower : s'.depth ≤ s.depth)
    (slots : ∀ i, s'.slotAt i = s.slotAt i ∨ s'.slotAt i = none ∧ i < s.depth)
    (left : ∀ i, s'.depth ≤ i → i < s.depth → s'.slotAt i = none) :
    Rewinding held k log s' where
  shrunk i := by
    rcases slots i with same | ⟨emptied, -⟩
    · rw [same]
      exact rewinding.shrunk i
    · exact .inl emptied
  kept unwoken unlost := by
    obtain ⟨there, deep⟩ := rewinding.kept unwoken unlost
    rcases slots k with same | ⟨-, inside⟩
    · exact ⟨same.trans there, Nat.le_trans shallower deep⟩
    · omega
  gone passed i further := by
    rcases Nat.lt_or_ge i s.depth with inside | outside
    · exact left i further inside
    · rcases slots i with same | ⟨emptied, -⟩
      · rw [same]
        exact rewinding.gone passed i outside
      · exact emptied
  ahead there i entered before := by
    have still : s.slotAt k = some .pause := by
      rcases slots k with same | ⟨emptied, -⟩
      · rw [← same, there]
      · simp [emptied] at there
    rcases rewinding.ahead still i entered before with ⟨deep, same⟩ | reentered
    · refine .inl ⟨Nat.le_trans shallower deep, ?_⟩
      rcases slots i with unchanged | ⟨-, inside⟩
      · exact unchanged.trans same
      · omega
    · exact .inr reentered

theorem leave (rewinding : Rewinding held k log s) (nested : 2 ≤ s.depth)
    (live : s.pausing = false) :
    ∃ departure changed, s.leave = .ok (departure, changed) ∧ changed.pausing = false ∧
      changed.depth = s.depth - 1 ∧ Rewinding held k log changed := by
  obtain ⟨departure, changed, left, still, depth, slots⟩ := FrameStack.leave_live nested live
  refine ⟨departure, changed, left, still, depth, rewinding.empty (by omega) (fun i => ?_) ?_⟩
  · rw [slots]
    split
    · next emptied => exact .inr ⟨rfl, emptied.2⟩
    · exact .inl rfl
  · intro i further inside
    rw [slots, if_pos (by omega)]

theorem recover (rewinding : Rewinding held k log s) {index : Nat} {marker : UInt32}
    (recovered : s.recoverTo index = .ok (marker, s')) :
    Rewinding held k (log ++ [.recovery s s']) s' := by
  obtain ⟨wound, depth, -, slots⟩ := FrameStack.recoverTo_ok recovered
  refine ⟨fun i => ?_, ?_, ?_, ?_⟩
  · rw [slots]
    split
    · exact rewinding.shrunk i
    · exact .inl rfl
  · intro unwoken unlost
    rw [woken_append, not_or] at unwoken
    rw [lost_append, not_or] at unlost
    obtain ⟨there, deep⟩ := rewinding.kept unwoken.1 unlost.1
    exact absurd ⟨k, by omega, there⟩ unlost.2
  · intro _ i further
    rw [slots, if_neg (by omega)]
  · intro there i entered before
    rw [slots] at there
    split at there
    · next inside =>
      rcases rewinding.ahead there i entered before with ⟨deep, -⟩ | reentered
      · omega
      · exact .inr (reentered.append _)
    · simp at there

theorem wake (rewinding : Rewinding held k log s) (stacked : StackedAt held k)
    (there : s.slotAt s.depth = some .pause) :
    Rewinding held k (log ++ [.primitive s])
        { s.enter.setSlot s.depth none with pausing := false } ∧
      ∀ i, 1 ≤ i → Reentered held (log ++ [.primitive s]) i := by
  obtain rfl := rewinding.eq_of_pause stacked there
  have slots (i : Nat) :
      FrameStack.slotAt { s.enter.setSlot s.depth none with pausing := false } i =
        if i = s.depth then none else s.slotAt i := by
    rw [← s.slotAt_enter i]
    exact s.enter.slotAt_setSlot_none s.depth i
  have woken : Woken (log ++ [.primitive s]) := (woken_append ..).mpr (.inr there)
  constructor
  · refine ⟨fun i => ?_, fun unwoken => absurd woken unwoken, fun _ i further => ?_, ?_⟩
    · rw [slots]
      split
      · exact .inl rfl
      · exact rewinding.shrunk i
    · rw [slots]
      split
      · rfl
      · exact rewinding.empty_beyond stacked further
    · intro still
      simp [slots] at still
  -- The frames on the way were all entered, and further in nothing was held.
  · intro i entered
    rcases Nat.lt_trichotomy i s.depth with before | rfl | after
    · rcases rewinding.ahead there i entered before with ⟨deep, -⟩ | reentered
      · omega
      · exact reentered.append _
    · intro slot holds
      exact ⟨.primitive s, by simp, rfl, there.trans (stacked.sentinel.symm.trans holds)⟩
    · intro slot holds
      simp [stacked.beyond i after] at holds

theorem retained_iff (rewinding : Rewinding held k log s) (entry : s.depth = 1)
    (unwoken : ¬ Woken log) : s.retained ≠ 0 ↔ (Lost log → (s.slotAt 0).isSome) := by
  rw [ne_eq, FrameStack.retained_eq_zero_iff]
  by_cases lost : Lost log
  · have inner (i : Nat) (inside : 1 ≤ i) : s.slotAt i = none :=
      rewinding.gone (.inr lost) i (entry ▸ inside)
    simp only [lost, forall_const]
    cases own : s.slotAt 0 with
    | none =>
      have empty (i : Nat) : s.slotAt i = none := by
        cases i with
        | zero => exact own
        | succ i => exact inner (i + 1) (Nat.le_add_left 1 i)
      simp [empty]
    | some slot =>
      refine iff_of_true (fun empty => ?_) rfl
      simp [empty 0] at own
  · obtain ⟨there, -⟩ := rewinding.kept unwoken lost
    refine iff_of_true (fun empty => ?_) fun now => absurd now lost
    simp [empty k] at there

end Rewinding

/-- The moves of a run, seen from the frame that is current: once the sentinel was taken by a
primitive no frame was skipped, and a live task still has to come to it. -/
structure Traced (held : Nat → Option (Slot ρ)) (k : Nat) (log : List (Move ρ))
    (s : FrameStack ρ) : Prop where
  entered : 1 ≤ s.depth
  complete : Woken log → ∀ i, 1 ≤ i → Reentered held log i
  live : s.pausing = false → Rewinding held k log s

namespace Traced

variable {log : List (Move ρ)} {s s' : FrameStack ρ}

theorem start (stacked : StackedAt held k) (entry : s.depth = 1) (slots : s.slotAt = held) :
    Traced held k [] s := by
  have asleep : ¬ Woken ([] : List (Move ρ)) := by simp [Woken]
  have unlost : ¬ Lost ([] : List (Move ρ)) := by simp [Lost]
  refine ⟨Nat.le_of_eq entry.symm, fun woken => absurd woken asleep, fun _ => ?_⟩
  refine ⟨fun i => .inr (by rw [slots]), fun _ _ => ?_, fun passed => ?_, fun _ i inside _ => ?_⟩
  · rw [slots, entry]
    exact ⟨stacked.sentinel, stacked.inside⟩
  · exact absurd passed (not_or.mpr ⟨asleep, unlost⟩)
  · rw [slots, entry]
    exact .inl ⟨inside, rfl⟩

theorem skipped_iff (traced : Traced held k log s) (stacked : StackedAt held k) :
    Skipped held log ↔ ¬ Woken log := by
  constructor
  · rintro ⟨i, inside, missed⟩ woken
    exact missed (traced.complete woken i inside)
  · exact stacked.skipped

theorem suspended (traced : Traced held k log s) (entered : 1 ≤ s'.depth)
    (pausing : s'.pausing = true) : Traced held k log s' :=
  ⟨entered, traced.complete, fun live => by simp [live] at pausing⟩

theorem sleeping (traced : Traced held k log s) {m : Move ρ} (asleep : ¬ m.Wakes) :
    Woken (log ++ [m]) → ∀ i, 1 ≤ i → Reentered held (log ++ [m]) i := by
  intro woken i inside
  rcases (woken_append log m).mp woken with before | now
  · exact (traced.complete before i inside).append _
  · exact absurd now asleep

theorem call (traced : Traced held k log s) (stacked : StackedAt held k) :
    Traced held k (log ++ if s.pausing then [] else [.call s]) s.enter := by
  cases pausing : s.pausing with
  | true =>
    simp only [↓reduceIte, List.append_nil]
    exact traced.suspended (Nat.le_add_left 1 _) pausing
  | false =>
    simp only [Bool.false_eq_true, ↓reduceIte]
    refine ⟨Nat.le_add_left 1 _, traced.sleeping (by simp [Wakes]), fun _ => ?_⟩
    exact (traced.live pausing).enter stacked (fun slot there other => ⟨rfl, there, other⟩)
      (by simp [Wakes]) Iff.rfl

theorem leave (traced : Traced held k log s) (nested : 2 ≤ s.depth) :
    ∃ departure changed, s.leave = .ok (departure, changed) ∧ Traced held k log changed := by
  cases pausing : s.pausing with
  | true =>
    have deep : ¬ s.depth < 2 := by omega
    have around : 1 ≤ s.depth - 1 := by omega
    simp only [FrameStack.leave, deep, ↓reduceIte, pausing]
    exact ⟨_, _, rfl, traced.suspended around rfl⟩
  | false =>
    obtain ⟨departure, changed, left, -, depth, rewinding⟩ :=
      (traced.live pausing).leave nested pausing
    exact ⟨departure, changed, left, by omega, traced.complete, fun _ => rewinding⟩

theorem take (traced : Traced held k log s) :
    Traced held k log (s.setSlot (s.depth - 1) none) := by
  refine ⟨traced.entered, traced.complete, fun live => ?_⟩
  have inside : s.depth - 1 < s.depth := Nat.sub_one_lt_of_lt traced.entered
  refine (traced.live live).empty (Nat.le_refl _) (fun i => ?_) fun i further inside => ?_
  · rw [s.slotAt_setSlot_none]
    split
    · next here => exact .inr ⟨rfl, here ▸ inside⟩
    · exact .inl rfl
  · exact absurd further (Nat.not_le_of_lt inside)

theorem recover (traced : Traced held k log s) {index : Nat} {marker : UInt32}
    (recovered : s.recoverTo index = .ok (marker, s')) :
    Traced held k (log ++ if s.pausing then [] else [.recovery s s']) s' := by
  obtain ⟨-, depth, same, -⟩ := FrameStack.recoverTo_ok recovered
  cases pausing : s.pausing with
  | true =>
    simp only [↓reduceIte, List.append_nil]
    exact traced.suspended (by omega) (same.trans pausing)
  | false =>
    simp only [Bool.false_eq_true, ↓reduceIte]
    exact ⟨by omega, traced.sleeping (by simp [Wakes]),
      fun _ => (traced.live pausing).recover recovered⟩

theorem primitive (traced : Traced held k log s) (stacked : StackedAt held k)
    (live : s.pausing = false) :
    Traced held k (log ++ [.primitive s]) (s.enter.togglePause.toOption.getD s.enter) ∧
      2 ≤ (s.enter.togglePause.toOption.getD s.enter).depth := by
  have rewinding := traced.live live
  have nested : 2 ≤ s.depth + 1 := Nat.succ_le_succ traced.entered
  rw [s.togglePause_enter]
  rcases there : s.slotAt s.depth with _ | _ | ⟨marker, state⟩
  · refine ⟨⟨Nat.le_of_succ_le nested, traced.sleeping (by simp [Wakes, there]), ?_⟩, nested⟩
    intro still
    cases still
  · obtain ⟨after, complete⟩ := rewinding.wake stacked there
    exact ⟨⟨Nat.le_of_succ_le nested, fun _ => complete, fun _ => after⟩, nested⟩
  · refine ⟨⟨Nat.le_of_succ_le nested, traced.sleeping (by simp [Wakes, there]), fun _ => ?_⟩,
      nested⟩
    exact rewinding.enter stacked (fun slot there _ => ⟨rfl, there⟩) (by simp [Wakes, there])
      (by simp [Loses, there])

end Traced

namespace Context

def Moves (held : Nat → Option (Slot ρ)) (k : Nat) (moves : Context ρ ε → List (Move ρ))
    (code : Context ρ ε → Ending α × Context ρ ε) : Prop :=
  ∀ (cx : Context ρ ε) (log : List (Move ρ)), Traced held k log cx.frames →
    Traced held k (log ++ moves cx) (code cx).2.frames

theorem call_moves (stacked : StackedAt held k) {inner : Context ρ ε → List (Move ρ)}
    {body : Context ρ ε → Ending α × Context ρ ε} (moves : Moves held k inner body) :
    Moves held k (callMoves inner) (call body) := by
  intro cx log traced
  have during := moves { cx with frames := cx.frames.enter } _ (traced.call stacked)
  rw [List.append_assoc] at during
  change Traced held k (log ++ callMoves inner cx) _ at during
  simp only [call]
  generalize body { cx with frames := cx.frames.enter } = ran at during ⊢
  obtain ⟨ending, last⟩ := ran
  by_cases nested : 2 ≤ last.frames.depth
  · obtain ⟨departure, changed, left, after⟩ := during.leave nested
    cases ending with
    | panicked payload => exact during
    | returned _ | unwound _ =>
      simp only [left]
      exact after
  · have unmatched : last.frames.leave = .error (.leaveUnmatched last.frames.depth) :=
      if_pos (Nat.lt_of_not_le nested)
    cases ending with
    | panicked payload => exact during
    | returned _ | unwound _ =>
      simp only [unmatched]
      exact during

theorem suspend_moves (suspension : Suspension) (marker : UInt32) (locals : Captured ρ) :
    Moves held k (fun _ => []) fun cx : Context ρ ε => cx.suspend suspension marker locals := by
  intro cx log traced
  rw [List.append_nil]
  simp only [suspend]
  split
  · exact traced
  · simp only [FrameStack.capture]
    split
    · next captured =>
      split at captured
      · simp at captured
      · split at captured
        · simp at captured
        · obtain rfl := Except.ok.inj captured
          exact traced.suspended traced.entered rfl
    · exact traced

theorem invokeFrame_moves (stacked : StackedAt held k) {inner : Context ρ ε → List (Move ρ)}
    {execute : Context ρ ε → Ending Unit × Context ρ ε} (moves : Moves held k inner execute)
    (given : ρ) : Moves held k (invokeFrameMoves inner given) (invokeFrame execute given) := by
  intro cx log traced
  simp only [invokeFrame, invokeFrameMoves]
  generalize found : (if cx.frames.rewinding = true then cx.frames.take .routine
    else .ok (given, cx.frames)) = target
  rcases target with _ | ⟨target, frames⟩
  · rw [List.append_nil]
    exact traced
  · have taken : Traced held k log frames := by
      split at found
      · simp only [FrameStack.take, Except.map] at found
        split at found
        · simp at found
        · obtain ⟨-, rfl⟩ := Prod.mk.inj (Except.ok.inj found)
          exact traced.take
      · obtain ⟨-, rfl⟩ := Prod.mk.inj (Except.ok.inj found)
        exact traced
    have after := call_moves stacked moves { cx with frames, object := target } log taken
    dsimp only
    generalize call execute { cx with frames, object := target } = called at after ⊢
    obtain ⟨ending, last⟩ := called
    rcases ending with (_ | suspension) | unwind | payload
    · exact after
    · have passed :=
        suspend_moves suspension 1 (.routine last.object) { last with object := cx.object } _ after
      rwa [List.append_nil] at passed
    · exact after
    · exact after

theorem pause_moves (stacked : StackedAt held k) (reason : WaitReason) :
    Moves held k pauseMoves fun cx : Context ρ ε => cx.pause reason := by
  intro cx log traced
  simp only [pause, pauseMoves]
  cases pausing : cx.frames.pausing with
  | true =>
    simp only [↓reduceIte, List.append_nil]
    exact traced
  | false =>
    simp only [Bool.false_eq_true, ↓reduceIte]
    obtain ⟨toggled, nested⟩ := traced.primitive stacked pausing
    obtain ⟨departure, changed, left, after⟩ := toggled.leave nested
    simp only [left]
    split
    · exact after
    · exact after
    · split <;> exact after

theorem recoverDepth_moves (trace : CallTrace) {cx : Context ρ ε} {log : List (Move ρ)}
    (traced : Traced held k log cx.frames) :
    Traced held k (log ++ cx.recoveryMoves trace) (cx.recoverDepth trace).2.frames := by
  have same : (cx.stackDepth trace).2.frames = cx.frames := rfl
  simp only [recoveryMoves, recoverDepth]
  generalize cx.stackDepth trace = counted at same ⊢
  rw [← same] at traced ⊢
  rcases counted with ⟨_ | _ | index, after⟩
  · rw [List.append_nil]
    exact traced
  · rw [List.append_nil]
    exact traced
  · rcases recovered : after.frames.recoverTo index with _ | ⟨marker, frames⟩
    · simp only [recovered, List.append_nil]
      exact traced
    · simp only [recovered]
      exact traced.recover recovered

end Context

theorem Op.perform_moves (stacked : StackedAt held k)
    (execute : Context ρ ε → Ending Unit × Context ρ ε) {op : Op ρ ε} (indirect : op.Indirect)
    {cx : Context ρ ε} {log : List (Move ρ)} (traced : Traced held k log cx.frames) :
    Traced held k (log ++ op.moves cx) (op.perform execute cx).2.frames := by
  cases op with
  | pause reason => exact Context.pause_moves stacked reason cx log traced
  | recoverDepth trace => exact Context.recoverDepth_moves trace traced
  | suspend suspension marker locals =>
    exact Context.suspend_moves suspension marker (.value locals) cx log traced
  | frameStep => exact indirect.elim
  | emit | look | object | become | now | restore | exit | errorExit | checkpoint | stackDepth
  | release | cancel | isReady | inspect | run | spawn | live =>
    simp only [moves, List.append_nil]
    exact traced

namespace Script

theorem exec_moves (stacked : StackedAt held k)
    {execute : Context ρ ε → Ending Unit × Context ρ ε} {inner : Context ρ ε → List (Move ρ)}
    (executes : Context.Moves held k inner execute) (script : Script ρ ε)
    (indirect : script.Indirect) :
    Context.Moves held k (script.moves execute inner) (script.exec execute) := by
  -- Each node hands the trace that it extended to what comes after it.
  induction script with
  | done ending =>
    intro cx log traced
    rw [moves, List.append_nil]
    exact traced
  | act op next ih =>
    intro cx log traced
    obtain ⟨own, later⟩ := indirect
    rw [moves, ← List.append_assoc]
    exact ih _ (later _) _ _ (Op.perform_moves stacked execute own traced)
  | call body next bodyIh ih =>
    intro cx log traced
    obtain ⟨own, later⟩ := indirect
    rw [moves, ← List.append_assoc]
    exact ih _ (later _) _ _ (Context.call_moves stacked (bodyIh () own) cx log traced)
  | invoke object next ih =>
    intro cx log traced
    have called :=
      Context.call_moves stacked (Context.invokeFrame_moves stacked executes object) cx log traced
    rw [moves, ← List.append_assoc]
    exact ih _ (indirect _) _ _ called

theorem execute_moves (stacked : StackedAt held k) {enter : ρ → Script ρ ε}
    (indirect : ∀ r, (enter r).Indirect) (depth : Nat) :
    Context.Moves held k (executeMoves enter depth) (execute enter depth) := by
  induction depth with
  | zero =>
    intro cx log traced
    rw [executeMoves, List.append_nil]
    exact traced
  | succ depth ih =>
    intro cx log traced
    exact exec_moves stacked ih (enter cx.object) (indirect cx.object) cx log traced

end Script

end

theorem Settlement.ofFrames_reported_iff (id : TaskId) (unwound : Bool) (frames : FrameStack ρ)
    (reason : Option WaitReason) :
    (∃ error, (ofFrames id unwound frames reason).answer = .failed error ∧
        error.kind = .protocolViolation) ↔
      (frames.depth = 1 → frames.pausing = false ∧ (unwound = false → frames.retained ≠ 0)) := by
  by_cases entry : frames.depth = 1
  · cases pausing : frames.pausing with
    | true =>
      rw [ofFrames_pausing entry pausing]
      cases ended reason <;> simp [answer, entry]
    | false =>
      simp only [ofFrames, FrameStack.finish, entry, pausing, ne_eq, not_true_eq_false, ↓reduceIte,
        Bool.not_false, Bool.and_true, Bool.true_and, true_and, forall_const, decide_eq_true_eq]
      cases unwound with
      | true => exact iff_of_true ⟨_, rfl, rfl⟩ (by simp)
      | false =>
        by_cases nothing : frames.retained = 0
        · rcases reason with _ | r
          · simp [nothing, answer]
          · cases r <;> simp [nothing, answer]
        · have held : frames.retained > 0 := Nat.pos_of_ne_zero nothing
          simp only [held, Bool.false_eq_true, ↓reduceIte]
          exact iff_of_true ⟨_, rfl, rfl⟩ fun _ => nothing
  · rw [ofFrames_away entry]
    exact iff_of_true ⟨_, rfl, rfl⟩ fun own => absurd own entry

namespace World

/-- The entry routine of a task comes back to the run, with its value or handing a suspension on,
and leaves this stack. -/
def ComesBack (w : World ρ ε) (enter : ρ → Script ρ ε) (depth task : Nat) (handsOn : Bool)
    (left : FrameStack ρ) : Prop :=
  ∃ cx, w.entry task = some cx ∧
    (Script.execute enter depth cx).1 = (if handsOn then .unwound .pause else .returned ()) ∧
    (Script.execute enter depth cx).2.frames = left

theorem entry_suspended {w : World ρ ε} {task : Nat} {t : Task ρ}
    (found : w.tasks[task]? = some t) (suspended : t.state = .suspended)
    (unwound : t.frames.depth = 0) :
    ∃ cx, w.entry task = some cx ∧ cx.frames.depth = 1 ∧
      cx.frames.slotAt = t.frames.slotAt := by
  let started : FrameStack ρ := { t.frames with pausing := false }
  have begun : t.frames.begin = .ok started.enter := if_pos unwound
  have entered : (w.entry task).map Context.frames = some started.enter := by
    simp [entry, found, Task.admission, suspended, begun]
  have depth : started.enter.depth = 1 := congrArg (· + 1) unwound
  have slots : started.enter.slotAt = t.frames.slotAt := funext started.slotAt_enter
  obtain ⟨cx, entered, same⟩ := Option.map_eq_some_iff.mp entered
  exact ⟨cx, entered, same ▸ depth, same ▸ slots⟩

open Move in
/-- The exact condition under which a run that resumes a task keeps its promise not to pass over the
point of suspension, for every routine that works through its context, however it treats the answers
that it gets. The task was suspended with locals captured in every frame, by any history of calls,
and the entry routine comes back. The promise is that the task is done in good order only if a
primitive took the sentinel away, and that a run that skips a frame is reported. -/
theorem sentinel_promise_kept_iff (w : World ρ ε) (calls : List (TaskCall ρ ε)) (task : Nat)
    (enter : ρ → Script ρ ε) (indirect : ∀ r, (enter r).Indirect) (depth : Nat) (handsOn : Bool)
    {t : Task ρ} {left : FrameStack ρ} :
    let past := ({ w with tasks := [] }.answerAll calls).2
    let ran := past.runTask (Script.execute enter depth) task
    let moves := past.moves enter depth task
    past.tasks[task]? = some t → t.state = .suspended → Stacked t.frames.slotAt →
    past.ComesBack enter depth task handsOn left →
    (((ran.1 = .done → (∃ t' value, ran.2.tasks[task]? = some t' ∧ t'.exit = some (.ok value)) →
        Woken moves) ∧
      (Skipped t.frames.slotAt moves →
        ∃ error, ran.1 = .failed error ∧ error.kind = .protocolViolation)) ↔
    (left.depth = 1 → Woken moves ∨
      left.pausing = false ∧ (handsOn = false → Lost moves → (left.slotAt 0).isSome))) := by
  intro past ran moves found suspended stacked back
  obtain ⟨k, stacked⟩ := stacked.exists_at
  obtain ⟨-, unwound, -, -⟩ := (history_idle w calls task t found).suspended suspended
  obtain ⟨cx, entered, ending, same⟩ := back
  obtain ⟨cx', entered', entry, slots⟩ := entry_suspended found suspended unwound
  obtain rfl : cx = cx' := Option.some.inj (entered.symm.trans entered')
  have executed := Script.execute_moves stacked indirect depth cx [] (.start stacked entry slots)
  have traced : Traced t.frames.slotAt k moves left := by
    simpa only [moves, World.moves, entered, List.nil_append, same] using executed
  have answered : ran.1 = (Settlement.ofFrames cx.id handsOn left
      (Script.execute enter depth cx).2.reason).answer := by
    simp only [ran, runTask_entered entered, ending, same]
    cases handsOn <;> rfl
  have reported : (∃ error, ran.1 = .failed error ∧ error.kind = .protocolViolation) ↔
      (left.depth = 1 → left.pausing = false ∧ (handsOn = false → left.retained ≠ 0)) :=
    answered ▸ Settlement.ofFrames_reported_iff cx.id handsOn left _
  rw [traced.skipped_iff stacked, reported]
  constructor
  · rintro ⟨-, surfaces⟩ own
    by_cases woken : Woken moves
    · exact .inl woken
    · obtain ⟨live, holds⟩ := surfaces woken own
      refine .inr ⟨live, fun value => ?_⟩
      exact ((traced.live live).retained_iff own woken).mp (holds value)
  · intro decided
    have surfaces (unwoken : ¬ Woken moves) (own : left.depth = 1) :
        left.pausing = false ∧ (handsOn = false → left.retained ≠ 0) := by
      obtain ⟨live, holds⟩ := (decided own).resolve_left unwoken
      exact ⟨live, fun value => ((traced.live live).retained_iff own unwoken).mpr (holds value)⟩
    refine ⟨fun done _ => ?_, surfaces⟩
    by_cases woken : Woken moves
    · exact woken
    · obtain ⟨error, failed, -⟩ := reported.mpr (surfaces woken)
      cases done.symm.trans failed

end World

namespace Script

def returns : Script ρ ε := .done (.returned .unit)

def callsOver : Script ρ ε := .call (fun _ => returns) fun _ => returns

end Script

def World.yielded : World Unit Unit :=
  (({ scheduler := default } : World Unit Unit).answerAll
    [.create () 0, .run 0 (fun _ => Script.handsOn) 1]).2

theorem World.yielded_stacked :
    ∃ t, World.yielded.tasks[0]? = some t ∧ t.state = .suspended ∧ Stacked t.frames.slotAt := by
  refine ⟨_, rfl, rfl, 1, Nat.le_refl 1, ?_, rfl, ?_⟩
  · intro i entry
    obtain rfl : i = 0 := by omega
    rfl
  · intro i deeper
    obtain ⟨j, rfl⟩ : ∃ j, i = j + 2 := ⟨i - 2, by omega⟩
    rfl

theorem returning_resume_is_reported :
    (∃ t, World.yielded.tasks[0]? = some t ∧ t.state = .suspended ∧ Stacked t.frames.slotAt) ∧
    ∃ error,
      (World.yielded.runTask (Script.execute (fun _ => Script.returns) 1) 0).1 = .failed error ∧
      error.kind = .protocolViolation := by
  refine ⟨World.yielded_stacked, ?_⟩
  obtain ⟨t, found, suspended, stacked⟩ := World.yielded_stacked
  have unmoved : World.yielded.moves (fun _ => Script.returns) 1 0 = [] := rfl
  have promise := World.sentinel_promise_kept_iff { scheduler := default }
    [.create () 0, .run 0 (fun _ => Script.handsOn) 1] 0 (fun _ => Script.returns)
    (fun _ => trivial) 1 false found suspended stacked ⟨_, rfl, rfl, rfl⟩
  refine (promise.mpr fun _ => .inr ⟨rfl, fun _ => ?_⟩).2 ?_
  · rintro ⟨m, made, -⟩
    cases unmoved ▸ made
  · obtain ⟨k, stacked⟩ := stacked.exists_at
    refine stacked.skipped ?_
    rintro ⟨m, made, -⟩
    cases unmoved ▸ made

/-- The call in the sentinel's frame takes the sentinel with it, and nothing is left to be seen. -/
theorem called_over_sentinel_is_not_reported :
    let ran := World.yielded.runTask (Script.execute (fun _ => Script.callsOver) 1) 0
    let moves := World.yielded.moves (fun _ => Script.callsOver) 1 0
    ∃ t, World.yielded.tasks[0]? = some t ∧ t.state = .suspended ∧ Stacked t.frames.slotAt ∧
      (∃ left, World.yielded.ComesBack (fun _ => Script.callsOver) 1 0 false left) ∧
      ran.1 = .done ∧ ran.2.tasks[0]?.map Task.exit = some (some (.ok .ok)) ∧
      ¬ Move.Woken moves ∧ Move.Skipped t.frames.slotAt moves := by
  intro ran moves
  obtain ⟨t, found, suspended, stacked⟩ := World.yielded_stacked
  have unwoken : ¬ Move.Woken moves := by
    rintro ⟨m, made, wakes⟩
    obtain rfl := List.mem_singleton.mp made
    exact wakes
  obtain ⟨k, at_k⟩ := stacked.exists_at
  exact ⟨t, found, suspended, stacked, ⟨_, _, rfl, rfl, rfl⟩, rfl, rfl, unwoken,
    at_k.skipped unwoken⟩

end ResumableTasks
