import ResumableTasks.Proofs.CountedFrames
import ResumableTasks.Proofs.FreshMarkers
import ResumableTasks.Proofs.RecoveredFrame
import ResumableTasks.Proofs.SuspensionCycles
/-!
Where a recovery lands. A trace names a frame by the number of frames that take part in suspension
below it, and slots are counted from zero, so the frame that becomes the current one is the last of
that many. Nothing is left above it and nothing below it changes. A trace that names no wound frame
recovers none.
-/
namespace ResumableTasks

variable {ρ ε : Type}

namespace FrameStack

variable {s s' t : FrameStack ρ}

/-- The stack after a recovery that left `count` frames, the last of them the current one. -/
structure Landed (s s' : FrameStack ρ) (count : Nat) : Prop where
  wound : s'.depth = count
  below : ∀ i < count, s'.slotAt i = s.slotAt i
  above : ∀ i, count ≤ i → s'.slotAt i = none
  marker : s'.marker = s.markerAt (count - 1)

def Unwinds (s : FrameStack ρ) : Prop :=
  ∃ departures : List Departure, ∃ entry,
    s.Plays (List.replicate (s.depth - 1) .leave) (departures.map .left) entry ∧ entry.depth = 1

theorem markerAt_congr (same : s.slotAt = t.slotAt) : s.markerAt = t.markerAt := by
  funext i
  unfold markerAt
  rw [same]

theorem Landed.congr {count : Nat} (landed : Landed s s' count) (same : s.slotAt = t.slotAt) :
    Landed t s' count where
  wound := landed.wound
  below i inside := (landed.below i inside).trans (congrFun same i)
  above := landed.above
  marker := landed.marker.trans (congrFun (markerAt_congr same) _)

theorem recoverTo_lands {index : Nat} (wound : index < s.depth) :
    ∃ s', s.recoverTo index = .ok (s.markerAt index, s') ∧ Landed s s' (index + 1) := by
  cases recovered : s.recoverTo index with
  | error error =>
    obtain ⟨away, -⟩ := recoverTo_error_iff.mp recovered
    omega
  | ok answered =>
    obtain ⟨marker, s'⟩ := answered
    obtain ⟨-, depth, -, slots⟩ := recoverTo_ok recovered
    have inside : ¬ s.depth ≤ index := by omega
    obtain ⟨rfl, exposed⟩ : s.markerAt index = marker ∧ s'.marker = s.markerAt index := by
      simp only [recoverTo, if_neg inside] at recovered
      cases recovered
      exact ⟨rfl, rfl⟩
    have landed : Landed s s' (index + 1) := by
      constructor
      · exact depth
      · intro i kept
        rw [slots, if_pos (Nat.le_of_lt_succ kept)]
      · intro i beyond
        rw [slots, if_neg (by omega)]
      · exact exposed
    exact ⟨s', rfl, landed⟩

theorem leaves_to_entry (n : Nat) (depth : s.depth = n + 1) :
    ∃ departures : List Departure, ∃ entry,
      s.Plays (List.replicate n .leave) (departures.map .left) entry ∧ entry.depth = 1 := by
  induction n generalizing s with
  | zero => exact ⟨[], s, plays_nil s, depth⟩
  | succ n ih =>
    have nested : 2 ≤ s.depth := by omega
    obtain ⟨departure, changed, left, shallower⟩ := leave_nested nested
    have attempted : FrameStep.leave.attempt s = .ok (.left departure, changed) := by
      simp only [FrameStep.attempt, left]
      rfl
    have below : changed.depth = n + 1 := by omega
    obtain ⟨departures, entry, later, back⟩ := ih below
    exact ⟨departure :: departures, entry, plays_cons attempted later, back⟩

theorem unwinds_of_wound (wound : 1 ≤ s.depth) : s.Unwinds :=
  leaves_to_entry (s.depth - 1) (Nat.sub_add_cancel wound).symm

end FrameStack

namespace Context

open FrameStack

theorem stackDepth_frames (cx : Context ρ ε) (trace : CallTrace) :
    (cx.stackDepth trace).2.frames = cx.frames := rfl

theorem stackDepth_counts (cx : Context ρ ε) (trace : CallTrace) :
    (cx.stackDepth trace).1 =
      if trace.frames.tail.any CallSite.isBoundary
      then .ok ((toBoundary trace.frames.tail).countP (cx.world.classifierAt cx.classifier).counts)
      else .error (.failed (.noBoundary trace)) := by
  have counted := ((cx.world.classifierAt cx.classifier).stackDepth_counts trace).1
  change ((cx.world.classifierAt cx.classifier).stackDepth trace).1.mapError Unwind.failed = _
  rw [counted]
  split <;> rfl

variable {cx : Context ρ ε} {trace : CallTrace}

theorem recoverDepth_lands {index : Nat} (found : (cx.stackDepth trace).1 = .ok (index + 1))
    (wound : index < cx.frames.depth) :
    (cx.recoverDepth trace).1 = .ok (cx.frames.markerAt index) ∧
      Landed cx.frames (cx.recoverDepth trace).2.frames (index + 1) := by
  obtain ⟨frames, recovered, landed⟩ := recoverTo_lands wound
  have same := cx.stackDepth_frames trace
  unfold recoverDepth
  rcases counted : cx.stackDepth trace with ⟨answer, asked⟩
  rw [counted] at found same
  obtain rfl : answer = .ok (index + 1) := found
  obtain recovered : asked.frames.recoverTo index = .ok (cx.frames.markerAt index, frames) :=
    same ▸ recovered
  simp only [recovered]
  exact ⟨trivial, landed⟩

theorem recoverDepth_refuses
    (unnamed : (cx.stackDepth trace).1 = .ok 0 ∨
      (∃ depth, (cx.stackDepth trace).1 = .ok depth ∧ cx.frames.depth < depth) ∨
      ¬ trace.frames.tail.any CallSite.isBoundary) :
    (∃ error, (cx.recoverDepth trace).1 = .error (.failed error) ∧ error.isFatal) ∧
      (cx.recoverDepth trace).2.frames = cx.frames := by
  have found := cx.stackDepth_counts trace
  have same := cx.stackDepth_frames trace
  unfold recoverDepth
  rcases counted : cx.stackDepth trace with ⟨answer, asked⟩
  rw [counted] at unnamed found same
  rcases unnamed with none | ⟨depth, deep, away⟩ | unbounded
  · obtain rfl : answer = .ok 0 := none
    exact ⟨⟨_, rfl, rfl⟩, same⟩
  · obtain rfl : answer = .ok depth := deep
    obtain ⟨index, rfl⟩ := Nat.exists_eq_add_one_of_ne_zero (Nat.ne_zero_of_lt away)
    have outside : asked.frames.depth ≤ index := by
      rw [same]
      omega
    have refused := recoverTo_error_iff.mpr ⟨outside, rfl⟩
    simp only [refused]
    exact ⟨⟨_, rfl, rfl⟩, same⟩
  · rw [if_neg unbounded] at found
    obtain rfl : answer = .error (.failed (.noBoundary trace)) := found
    exact ⟨⟨_, rfl, rfl⟩, same⟩

/-- A recovery lands on the frame that the trace names. If that many frames are wound, just these
stay as they are, the last of them becomes the current one with its marker, and all of them can be
left in turn. Otherwise the recovery fails for good and the stack stays as it is. Frames that were
entered meanwhile and abandoned leave no trace of themselves. -/
theorem recovery_lands_on_named_frame (cx : Context ρ ε) (trace : CallTrace) :
    (∀ depth, (cx.stackDepth trace).1 = .ok depth → 1 ≤ depth → depth ≤ cx.frames.depth →
      let recovered := cx.recoverDepth trace
      recovered.1 = .ok (cx.frames.markerAt (depth - 1)) ∧
        Landed cx.frames recovered.2.frames depth ∧ recovered.2.frames.Unwinds) ∧
    ((cx.stackDepth trace).1 = .ok 0 ∨
        (∃ depth, (cx.stackDepth trace).1 = .ok depth ∧ cx.frames.depth < depth) ∨
        ¬ trace.frames.tail.any CallSite.isBoundary →
      (∃ error, (cx.recoverDepth trace).1 = .error (.failed error) ∧ error.isFatal) ∧
        (cx.recoverDepth trace).2.frames = cx.frames) ∧
    ∀ entered depth, (cx.stackDepth trace).1 = .ok depth → 1 ≤ depth →
      depth ≤ cx.frames.depth + entered →
      let abandoned := { cx with frames := enter^[entered] cx.frames }
      let recovered := abandoned.recoverDepth trace
      recovered.1 = .ok (cx.frames.markerAt (depth - 1)) ∧
        Landed cx.frames recovered.2.frames depth ∧ recovered.2.frames.Unwinds := by
  have lands (cx : Context ρ ε) (depth : Nat) (found : (cx.stackDepth trace).1 = .ok depth)
      (counted : 1 ≤ depth) (wound : depth ≤ cx.frames.depth) :
      (cx.recoverDepth trace).1 = .ok (cx.frames.markerAt (depth - 1)) ∧
        Landed cx.frames (cx.recoverDepth trace).2.frames depth ∧
        (cx.recoverDepth trace).2.frames.Unwinds := by
    obtain ⟨index, rfl⟩ := Nat.exists_eq_add_one_of_ne_zero (Nat.ne_of_gt counted)
    obtain ⟨answered, landed⟩ := recoverDepth_lands found wound
    have nested : 1 ≤ (cx.recoverDepth trace).2.frames.depth := by
      rw [landed.wound]
      exact counted
    exact ⟨answered, landed, unwinds_of_wound nested⟩
  constructor
  · exact lands cx
  constructor
  · exact recoverDepth_refuses
  · intro entered depth found counted wound abandoned
    obtain ⟨deeper, slots⟩ := cx.frames.enter_iterate entered
    obtain ⟨answered, landed, unwinds⟩ :=
      lands abandoned depth found counted (wound.trans_eq deeper.symm)
    refine ⟨?_, landed.congr slots, unwinds⟩
    rw [answered]
    exact congrArg Except.ok (congrFun (markerAt_congr slots) _)

def rewound : Context Unit Unit where
  task := 0
  id := .ofIndex 0
  classifier := 0
  frames :=
    { slots := [some (.saved 7 (.value .unit)), some (.saved 8 (.value .unit)),
        some (.saved 9 (.value .unit)), some .pause]
      depth := 3
      marker := 9 }
  reason := none
  object := ()
  world := .ofOne

theorem middle_frame_recovered :
    let frame (routine : String) : CallSite := { path := "weft::app", routine }
    let middle : CallTrace := ⟨[frame "recover", frame "middle", frame "entry", .boundary]⟩
    let deep : CallTrace :=
      ⟨[frame "recover", frame "inner", frame "leaf", frame "middle", frame "entry", .boundary]⟩
    let foreign : CallTrace := ⟨[frame "recover", frame "middle", frame "entry"]⟩
    let abandoned := { rewound with frames := enter^[2] rewound.frames }
    let back := (abandoned.recoverDepth middle).2.frames
    ((rewound.stackDepth middle).1 = .ok 2 ∧ (abandoned.recoverDepth middle).1 = .ok 8 ∧
        Landed rewound.frames back 2 ∧ back.Unwinds) ∧
      ((rewound.stackDepth deep).1 = .ok 4 ∧
        (rewound.recoverDepth deep).2.frames = rewound.frames) ∧
      (rewound.recoverDepth foreign).2.frames = rewound.frames := by
  intro frame middle deep foreign abandoned back
  have two : (rewound.stackDepth middle).1 = .ok 2 := by decide +kernel
  have four : (rewound.stackDepth deep).1 = .ok 4 := by decide +kernel
  have unbounded : ¬ foreign.frames.tail.any CallSite.isBoundary := by decide
  obtain ⟨-, -, abandons⟩ := recovery_lands_on_named_frame rewound middle
  obtain ⟨answered, landed, unwinds⟩ := abandons 2 2 two (by decide) (by decide)
  obtain ⟨-, tooDeep, -⟩ := recovery_lands_on_named_frame rewound deep
  obtain ⟨-, away, -⟩ := recovery_lands_on_named_frame rewound foreign
  refine ⟨⟨two, answered, landed, unwinds⟩, ⟨four, ?_⟩, ?_⟩
  · exact (tooDeep (.inr (.inl ⟨4, four, by decide⟩))).2
  · exact (away (.inr (.inr unbounded))).2

end Context

end ResumableTasks
