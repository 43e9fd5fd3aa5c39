import Mathlib.Data.List.Induction
import ResumableTasks.FrameStack.Step
import ResumableTasks.Proofs.WoundStack
/-!
What a stack gives back over repeated suspensions. A first suspension saves some frames; each later
cycle re-enters all of them, lets the innermost ones return, and suspends again from the frame that
is then live, perhaps below new frames. Every answer on the way is stated, and the stack that a
cycle leaves holds the frames that were kept, the live one and the new ones, in this order.
-/
namespace ResumableTasks

variable {ρ : Type}

namespace FrameStep

open FrameStack SavedFrame

def captures : List SavedFrame → List (FrameStep ρ)
  | [] => []
  -- The innermost frame is left first, and each one that becomes current is saved.
  | f :: rest => captures rest ++ [.leave, .capture f.marker (.value f.locals)]

def suspension (frames : List SavedFrame) : List (FrameStep ρ) :=
  [FrameStep.begin] ++ List.replicate frames.length FrameStep.enter ++
    [FrameStep.togglePause] ++ captures frames ++ [FrameStep.finish]

def rewind : List SavedFrame → List (FrameStep ρ)
  | [] => []
  | f :: rest => .state (.value f.locals.type) :: .enter :: rewind rest

def reentry (frames : List SavedFrame) : List (FrameStep ρ) := .begin :: rewind frames

def completion (frames : List SavedFrame) : List (FrameStep ρ) :=
  reentry frames ++ [FrameStep.togglePause] ++ List.replicate frames.length FrameStep.leave ++
    [FrameStep.finish]

end FrameStep

namespace FrameAnswer

open SavedFrame

def captured : List SavedFrame → List (FrameAnswer ρ)
  | [] => []
  | _ :: rest => captured rest ++ [.left ⟨true, false⟩, .done]

def suspension (frames : List SavedFrame) : List (FrameAnswer ρ) :=
  [FrameAnswer.marker freshMarker] ++
    List.replicate frames.length (FrameAnswer.marker freshMarker) ++ [FrameAnswer.done] ++
    captured frames ++ [FrameAnswer.suspended true]

/-- The locals saved at a depth, then the marker saved at the next; last the sentinel's marker. -/
def rewound : List SavedFrame → List (FrameAnswer ρ)
  | [] => []
  | f :: rest => .state (.value f.locals) :: .marker (nextMarker rest) :: rewound rest

def reentry (frames : List SavedFrame) : List (FrameAnswer ρ) :=
  .marker (nextMarker frames) :: rewound frames

def completion (frames : List SavedFrame) : List (FrameAnswer ρ) :=
  reentry frames ++ [FrameAnswer.done] ++
    List.replicate frames.length (FrameAnswer.left ⟨false, true⟩) ++ [FrameAnswer.suspended false]

end FrameAnswer

/-- One re-entry of a suspended stack that suspends again: the innermost `returns` frames return,
the frame that is live then saves `live`, and the frames `nested` are new below it. -/
structure Cycle where
  returns : Nat
  live : SavedFrame
  nested : List SavedFrame
  deriving Repr

namespace Cycle

open SavedFrame

def Legal (c : Cycle) (frames : List SavedFrame) : Prop :=
  (1 ≤ c.returns ∧ c.returns ≤ frames.length) ∧ c.live.Legal ∧ ∀ f ∈ c.nested, f.Legal

instance (c : Cycle) (frames : List SavedFrame) : Decidable (c.Legal frames) :=
  inferInstanceAs (Decidable (_ ∧ _ ∧ _))

def after (c : Cycle) (frames : List SavedFrame) : List SavedFrame :=
  frames.take (frames.length - c.returns) ++ c.live :: c.nested

def steps (c : Cycle) (frames : List SavedFrame) : List (FrameStep ρ) :=
  FrameStep.reentry frames ++ [FrameStep.togglePause] ++ List.replicate c.returns FrameStep.leave ++
    List.replicate (c.nested.length + 1) FrameStep.enter ++ [FrameStep.togglePause] ++
    FrameStep.captures (c.live :: c.nested) ++
    List.replicate (frames.length - c.returns) FrameStep.leave ++ [FrameStep.finish]

/-- The frames that return had state, the live frame and the new ones have none yet, and those
outside keep theirs. -/
def answers (c : Cycle) (frames : List SavedFrame) : List (FrameAnswer ρ) :=
  FrameAnswer.reentry frames ++ [FrameAnswer.done] ++
    List.replicate c.returns (FrameAnswer.left ⟨false, true⟩) ++
    List.replicate (c.nested.length + 1) (FrameAnswer.marker freshMarker) ++ [FrameAnswer.done] ++
    FrameAnswer.captured (c.live :: c.nested) ++
    List.replicate (frames.length - c.returns) (FrameAnswer.left ⟨true, true⟩) ++
    [FrameAnswer.suspended true]

def outcome (frames : List SavedFrame) (cycles : List Cycle) : List SavedFrame :=
  cycles.foldl (fun frames c => c.after frames) frames

def history : List SavedFrame → List Cycle → List (FrameStep ρ)
  | _, [] => []
  | frames, c :: rest => c.steps frames ++ history (c.after frames) rest

def historyAnswers : List SavedFrame → List Cycle → List (FrameAnswer ρ)
  | _, [] => []
  | frames, c :: rest => c.answers frames ++ historyAnswers (c.after frames) rest

def Lawful : List SavedFrame → List Cycle → Prop
  | _, [] => True
  | frames, c :: rest => c.Legal frames ∧ Lawful (c.after frames) rest

instance decidableLawful : ∀ frames cycles, Decidable (Lawful frames cycles)
  | _, [] => isTrue trivial
  | frames, c :: rest =>
    have := decidableLawful (c.after frames) rest
    inferInstanceAs (Decidable (_ ∧ _))

end Cycle

namespace FrameStack

open Slot SavedFrame

/-- Every step succeeds, with these answers, and `s'` is what they leave. -/
def Plays (s : FrameStack ρ) (steps : List (FrameStep ρ)) (answers : List (FrameAnswer ρ))
    (s' : FrameStack ρ) : Prop :=
  FrameStep.runAll steps s = (answers.map .ok, s')

theorem plays_nil (s : FrameStack ρ) : s.Plays [] [] s := rfl

theorem plays_cons {s mid s' : FrameStack ρ} {step : FrameStep ρ} {steps : List (FrameStep ρ)}
    {answer : FrameAnswer ρ} {answers : List (FrameAnswer ρ)}
    (first : step.attempt s = .ok (answer, mid))
    (later : mid.Plays steps answers s') : s.Plays (step :: steps) (answer :: answers) s' := by
  unfold Plays at *
  simp [FrameStep.runAll, FrameStep.run, first, later]

theorem plays_append {s mid s' : FrameStack ρ} {first second : List (FrameStep ρ)}
    {a b : List (FrameAnswer ρ)} (before : s.Plays first a mid) (after : mid.Plays second b s') :
    s.Plays (first ++ second) (a ++ b) s' := by
  unfold Plays at *
  induction first generalizing s a with
  | nil =>
    simp only [FrameStep.runAll, Prod.mk.injEq, List.nil_eq, List.map_eq_nil_iff] at before
    obtain ⟨rfl, rfl⟩ := before
    simpa using after
  | cons step rest ih =>
    cases a with
    | nil => simp [FrameStep.runAll] at before
    | cons answer a =>
      simp only [FrameStep.runAll, List.map_cons, Prod.mk.injEq, List.cons.injEq] at before
      obtain ⟨⟨answered, middle⟩, stack⟩ := before
      have later := ih (Prod.ext middle stack)
      simp only [List.cons_append, FrameStep.runAll, answered, later, List.map_cons]

theorem plays_single {s s' : FrameStack ρ} {step : FrameStep ρ} {answer : FrameAnswer ρ}
    (only : step.attempt s = .ok (answer, s')) : s.Plays [step] [answer] s' :=
  plays_cons only (plays_nil s')

section

variable (below above : List (Option (Slot ρ))) (own : Option (Slot ρ)) (marker : UInt32)
  (pausing : Bool)

theorem attempt_enter : FrameStep.enter.attempt (wound below own above marker pausing) =
    .ok (.marker (shown (above.headD none)), wound (below ++ [own]) (above.headD none) above.tail
      (shown (above.headD none)) pausing) := by
  simp [FrameStep.attempt, enter_wound]

theorem attempt_leave_live (caller : Option (Slot ρ)) :
    FrameStep.leave.attempt (wound (below ++ [caller]) own above marker false) =
      .ok (.left ⟨false, caller.isSome⟩, wound below none (none :: above) freshMarker false) := by
  simp only [FrameStep.attempt, leave_wound_live]
  rfl

theorem attempt_leave_pausing (caller : Option (Slot ρ)) :
    FrameStep.leave.attempt (wound (below ++ [caller]) own above marker true) =
      .ok (.left ⟨true, caller.isSome⟩,
        wound below caller (own :: above) (shown caller) true) := by
  simp only [FrameStep.attempt, leave_wound_pausing]
  rfl

theorem attempt_capture {f : SavedFrame} (legal : f.Legal) :
    (FrameStep.capture f.marker (.value f.locals)).attempt (wound below own above marker pausing) =
      .ok (.done, wound below f.slot above marker true) := by
  simp only [FrameStep.attempt, capture_wound _ _ _ _ _ legal]
  rfl

theorem attempt_state (f : SavedFrame) :
    (FrameStep.state (.value f.locals.type)).attempt (wound below f.slot above marker pausing) =
      .ok (.state (.value f.locals), wound below f.slot above marker pausing) := by
  have fits : (Expectation.captured (.value f.locals.type) : Expectation ρ (Captured ρ)).read
      (.value f.locals) = some (.value f.locals) := by simp [Expectation.captured, Captured.type]
  simp only [FrameStep.attempt, slot, state_wound_saved _ _ _ _ _ _ _ fits]
  rfl

theorem plays_enters (count : Nat) (blank : Blank above) :
    ∃ above' marker', Blank above' ∧ (wound below none above marker pausing).Plays
      (List.replicate count .enter) (List.replicate count (.marker freshMarker))
      (wound (below ++ List.replicate count none) none above' marker' pausing) := by
  induction count generalizing below above marker with
  | zero => exact ⟨above, marker, blank, by simpa using plays_nil _⟩
  | succ count ih =>
    have entered := attempt_enter below above none marker pausing
    rw [blank_head blank] at entered
    obtain ⟨above', marker', blank', later⟩ :=
      ih (below ++ [none]) above.tail (shown (none : Option (Slot ρ))) (blank_tail blank)
    refine ⟨above', marker', blank', ?_⟩
    rw [List.append_assoc] at later
    exact plays_cons entered later

theorem plays_rewind (frames : List SavedFrame) (spare : List (Option (Slot ρ)))
    (slots : own :: above = frames.map slot ++ some Slot.pause :: spare) :
    (wound below own above (shown own) pausing).Plays (FrameStep.rewind frames)
      (FrameAnswer.rewound frames)
      (wound (below ++ frames.map slot) (some .pause) spare pauseMarker pausing) := by
  induction frames generalizing below own above with
  | nil =>
    obtain ⟨rfl, rfl⟩ := List.cons.inj slots
    simpa [FrameStep.rewind, FrameAnswer.rewound, shown, Slot.marker] using plays_nil _
  | cons f rest ih =>
    obtain ⟨rfl, rfl⟩ := List.cons.inj slots
    have read := attempt_state below (rest.map slot ++ some Slot.pause :: spare) f.marker
      pausing f
    have entered := attempt_enter below (rest.map slot ++ some Slot.pause :: spare) f.slot
      f.marker pausing
    have split : (rest.map slot ++ some Slot.pause :: spare).headD none ::
        (rest.map slot ++ some Slot.pause :: spare).tail =
        rest.map slot ++ some Slot.pause :: spare := by cases rest <;> rfl
    have later := ih (below ++ [f.slot]) _ _ split
    rw [shown_slots] at entered later
    rw [List.append_assoc] at later
    exact plays_cons read (plays_cons entered later)

theorem plays_returns (frames : List SavedFrame) (blank : Blank above) :
    ∃ above' marker', Blank above' ∧
      (wound (below ++ frames.map slot) none above marker false).Plays
        (List.replicate frames.length .leave)
        (List.replicate frames.length (.left ⟨false, true⟩))
        (wound below none above' marker' false) := by
  induction frames using List.reverseRecOn generalizing above marker with
  | nil => exact ⟨above, marker, blank, by simpa using plays_nil _⟩
  | append_singleton rest f ih =>
    have left := attempt_leave_live (below ++ rest.map slot) above none marker f.slot
    obtain ⟨above', marker', blank', later⟩ :=
      ih (none :: above) freshMarker (blank_cons_iff.mpr ⟨rfl, blank⟩)
    refine ⟨above', marker', blank', ?_⟩
    simp only [List.map_append, List.map_cons, List.map_nil, List.length_append,
      List.length_singleton, List.replicate_succ, ← List.append_assoc]
    exact plays_cons left later

theorem plays_kept (frames : List SavedFrame) :
    ∃ own' above' marker', own' :: above' = frames.map slot ++ own :: above ∧
      (wound (below ++ frames.map slot) own above marker true).Plays
        (List.replicate frames.length .leave) (List.replicate frames.length (.left ⟨true, true⟩))
        (wound below own' above' marker' true) := by
  induction frames using List.reverseRecOn generalizing own above marker with
  | nil => exact ⟨own, above, marker, rfl, by simpa using plays_nil _⟩
  | append_singleton rest f ih =>
    have left := attempt_leave_pausing (below ++ rest.map slot) above own marker f.slot
    obtain ⟨own', above', marker', slots, later⟩ := ih (own :: above) f.slot (shown f.slot)
    refine ⟨own', above', marker', by simpa using slots, ?_⟩
    simp only [List.map_append, List.map_cons, List.map_nil, List.length_append,
      List.length_singleton, List.replicate_succ, ← List.append_assoc]
    exact plays_cons left later

theorem plays_captures (frames : List SavedFrame) (legal : ∀ f ∈ frames, f.Legal) :
    ∃ own' above' marker', own' :: above' = frames.map slot ++ own :: above ∧
      (wound (below ++ List.replicate frames.length none) own above marker true).Plays
        (FrameStep.captures frames) (FrameAnswer.captured frames)
        (wound below own' above' marker' true) := by
  induction frames generalizing below with
  | nil =>
    refine ⟨own, above, marker, rfl, ?_⟩
    simpa [FrameStep.captures, FrameAnswer.captured] using plays_nil _
  | cons f rest ih =>
    obtain ⟨own', above', marker', slots, inner⟩ :=
      ih (below ++ [none]) (fun g member => legal g (by simp [member]))
    have left := attempt_leave_pausing below above' own' marker' none
    have saved := attempt_capture below (own' :: above') none freshMarker true (legal f (by simp))
    refine ⟨f.slot, own' :: above', freshMarker, by simp [slots], ?_⟩
    rw [List.append_assoc] at inner
    exact plays_append inner (plays_cons left (plays_single saved))

end

theorem attempt_begin {s : FrameStack ρ} (unwound : s.depth = 0) :
    FrameStep.begin.attempt s = .ok (.marker (shown (s.slots.headD none)),
      wound [] (s.slots.headD none) s.slots.tail (shown (s.slots.headD none)) false) := by
  simp only [FrameStep.attempt, begin_unwound unwound]
  rfl

theorem attempt_finish (own : Option (Slot ρ)) (above : List (Option (Slot ρ)))
    (marker : UInt32) (pausing : Bool) :
    FrameStep.finish.attempt (wound [] own above marker pausing) =
      .ok (.suspended pausing, { slots := if pausing then own :: above else [] }) := by
  simp only [FrameStep.attempt, finish_wound]
  rfl

theorem attempt_togglePause_none (below above : List (Option (Slot ρ))) (marker : UInt32)
    (pausing : Bool) : FrameStep.togglePause.attempt (wound below none above marker pausing) =
      .ok (.done, wound below (some .pause) above marker true) := by
  simp only [FrameStep.attempt, togglePause_wound_none]
  rfl

theorem attempt_togglePause_pause (below above : List (Option (Slot ρ))) (marker : UInt32)
    (pausing : Bool) :
    FrameStep.togglePause.attempt (wound below (some .pause) above marker pausing) =
      .ok (.done, wound below none above marker false) := by
  simp only [FrameStep.attempt, togglePause_wound_pause]
  rfl

/-- Re-entering a suspended stack reports every marker and value where it was saved, and then the
marker of the sentinel. -/
theorem parked_reentry {s : FrameStack ρ} {frames : List SavedFrame} (parked : s.Parked frames) :
    ∃ spare, Blank spare ∧ s.Plays (FrameStep.reentry frames) (FrameAnswer.reentry frames)
      (wound (frames.map slot) (some .pause) spare pauseMarker false) := by
  obtain ⟨unwound, spare, blank, slots⟩ := parked
  have begun := attempt_begin unwound
  rw [slots] at begun
  have split : (frames.map slot ++ some Slot.pause :: spare).headD none ::
      (frames.map slot ++ some Slot.pause :: spare).tail =
      frames.map slot ++ some Slot.pause :: spare := by cases frames <;> rfl
  have rewound := plays_rewind [] _ _ false frames spare split
  rw [shown_slots] at begun rewound
  exact ⟨spare, blank, plays_cons begun rewound⟩

theorem parked_returns {s : FrameStack ρ} (kept returned : List SavedFrame)
    (parked : s.Parked (kept ++ returned)) :
    ∃ above marker, Blank above ∧
      s.Plays (FrameStep.reentry (kept ++ returned) ++ [FrameStep.togglePause] ++
          List.replicate returned.length FrameStep.leave)
        (FrameAnswer.reentry (kept ++ returned) ++ [FrameAnswer.done] ++
          List.replicate returned.length (FrameAnswer.left ⟨false, true⟩))
        (wound (kept.map slot) none above marker false) := by
  obtain ⟨spare, blank, entered⟩ := parked_reentry parked
  obtain ⟨above, marker, blank', left⟩ :=
    plays_returns (kept.map slot) spare pauseMarker returned blank
  have toggled := attempt_togglePause_pause ((kept ++ returned).map slot) spare pauseMarker false
  rw [List.map_append] at entered toggled
  exact ⟨above, marker, blank', plays_append (plays_append entered (plays_single toggled)) left⟩

theorem live_suspends (kept nested : List SavedFrame) (live : SavedFrame)
    {above : List (Option (Slot ρ))} (blank : Blank above) (marker : UInt32)
    (legal : ∀ f ∈ live :: nested, f.Legal) :
    ∃ s' : FrameStack ρ, s'.Parked (kept ++ live :: nested) ∧
      (wound (kept.map slot) none above marker false).Plays
        (List.replicate (nested.length + 1) FrameStep.enter ++ [FrameStep.togglePause] ++
          FrameStep.captures (live :: nested) ++ List.replicate kept.length FrameStep.leave ++
          [FrameStep.finish])
        (List.replicate (nested.length + 1) (FrameAnswer.marker freshMarker) ++
          [FrameAnswer.done] ++ FrameAnswer.captured (live :: nested) ++
          List.replicate kept.length (FrameAnswer.left ⟨true, true⟩) ++
          [FrameAnswer.suspended true]) s' := by
  obtain ⟨spare, deep, blank', entered⟩ :=
    plays_enters (kept.map slot) above marker false (nested.length + 1) blank
  have toggled := attempt_togglePause_none
    (kept.map slot ++ List.replicate (nested.length + 1) none) spare deep false
  obtain ⟨own, rest, shallow, slots, saved⟩ :=
    plays_captures (kept.map slot) spare (some Slot.pause) deep (live :: nested) legal
  obtain ⟨own', rest', last, slots', left⟩ := plays_kept [] rest own shallow kept
  have finished := attempt_finish own' rest' last true
  refine ⟨_, ⟨rfl, spare, blank', ?_⟩, plays_append (plays_append (plays_append
    (plays_append entered (plays_single toggled)) saved) left) (plays_single finished)⟩
  simp [slots', slots]

theorem parked_cycle {s : FrameStack ρ} {frames : List SavedFrame} (parked : s.Parked frames)
    (c : Cycle) (legal : c.Legal frames) :
    ∃ s' : FrameStack ρ, s'.Parked (c.after frames) ∧
      s.Plays (c.steps frames) (c.answers frames) s' := by
  obtain ⟨⟨-, bound⟩, live, nested⟩ := legal
  obtain ⟨keep, same⟩ : ∃ keep, frames.length - c.returns = keep := ⟨_, rfl⟩
  have parts : frames.take keep ++ frames.drop keep = frames := List.take_append_drop keep frames
  have kept : (frames.take keep).length = keep := by simp; omega
  have returned : (frames.drop keep).length = c.returns := by simp; omega
  -- The frames that stay are outside the live one, and those that return are inside it.
  rw [← parts] at parked
  obtain ⟨above, marker, blank, before⟩ := parked_returns _ _ parked
  obtain ⟨s', parked', after⟩ := live_suspends (frames.take keep) c.nested c.live blank marker
    (List.forall_mem_cons.mpr ⟨live, nested⟩)
  refine ⟨s', by rwa [← same] at parked', ?_⟩
  have whole := plays_append before after
  rw [parts, kept, returned] at whole
  simpa only [Cycle.steps, Cycle.answers, same, List.append_assoc] using whole

theorem parked_history {s : FrameStack ρ} {frames : List SavedFrame} (parked : s.Parked frames)
    (cycles : List Cycle) (lawful : Cycle.Lawful frames cycles) :
    ∃ s' : FrameStack ρ, s'.Parked (Cycle.outcome frames cycles) ∧
      s.Plays (Cycle.history frames cycles) (Cycle.historyAnswers frames cycles) s' := by
  induction cycles generalizing s frames with
  | nil => exact ⟨s, parked, plays_nil s⟩
  | cons c rest ih =>
    obtain ⟨mid, parked', first⟩ := parked_cycle parked c lawful.1
    obtain ⟨s', final, later⟩ := ih parked' lawful.2
    exact ⟨s', final, plays_append first later⟩

theorem parked_completion {s : FrameStack ρ} {frames : List SavedFrame}
    (parked : s.Parked frames) :
    s.Plays (FrameStep.completion frames) (FrameAnswer.completion frames) {} := by
  obtain ⟨above, marker, -, before⟩ := parked_returns [] frames parked
  exact plays_append before (plays_single (attempt_finish none above marker false))

theorem empty_suspends {s : FrameStack ρ} (unwound : s.depth = 0) (empty : s.retained = 0)
    {frames : List SavedFrame} (some_frame : frames ≠ []) (legal : ∀ f ∈ frames, f.Legal) :
    ∃ s' : FrameStack ρ, s'.Parked frames ∧
      s.Plays (FrameStep.suspension frames) (FrameAnswer.suspension frames) s' := by
  have blank : Blank s.slots := blank_iff_countP_zero.mp empty
  obtain ⟨live, nested, rfl⟩ := List.exists_cons_of_ne_nil some_frame
  have begun := attempt_begin unwound
  rw [blank_head blank] at begun
  obtain ⟨s', parked, suspends⟩ := live_suspends [] nested live (blank_tail blank) freshMarker legal
  refine ⟨s', parked, ?_⟩
  have whole := plays_cons begun suspends
  simpa [FrameStep.suspension, FrameAnswer.suspension, shown] using whole

/-- Suspend with some frames, then any number of cycles: every step succeeds with the stated
answers, the frames of the last suspension are what the next re-entry reads back, one slot more than
these frames is retained, and a re-entry in which all of them return leaves nothing. -/
theorem suspension_cycles_round_trip (s : FrameStack ρ) (unwound : s.depth = 0)
    (empty : s.retained = 0) (frames : List SavedFrame) (some_frame : frames ≠ [])
    (legal : ∀ f ∈ frames, f.Legal) (cycles : List Cycle)
    (lawful : Cycle.Lawful frames cycles) :
    ∃ s' : FrameStack ρ,
      s.Plays (FrameStep.suspension frames ++ Cycle.history frames cycles)
        (FrameAnswer.suspension frames ++ Cycle.historyAnswers frames cycles) s' ∧
      s'.retained = (Cycle.outcome frames cycles).length + 1 ∧
      (∃ reentered, s'.Plays (FrameStep.reentry (Cycle.outcome frames cycles))
        (FrameAnswer.reentry (Cycle.outcome frames cycles)) reentered) ∧
      s'.Plays (FrameStep.completion (Cycle.outcome frames cycles))
        (FrameAnswer.completion (Cycle.outcome frames cycles)) {} := by
  obtain ⟨first, parked, suspends⟩ := empty_suspends unwound empty some_frame legal
  obtain ⟨s', parked', later⟩ := parked_history parked cycles lawful
  obtain ⟨spare, -, reentered⟩ := parked_reentry parked'
  exact ⟨s', plays_append suspends later, retained_parked parked', ⟨_, reentered⟩,
    parked_completion parked'⟩

theorem two_cycles_round_trip :
    let frames : List SavedFrame := [⟨3, .literal "outer"⟩, ⟨7, .int64 5⟩]
    let cycles : List Cycle := [⟨1, ⟨9, .unit⟩, [⟨2, .bool true⟩]⟩, ⟨2, ⟨4, .unit⟩, []⟩]
    (∀ f ∈ frames, f.Legal) ∧ Cycle.Lawful frames cycles ∧
      Cycle.outcome frames cycles = [⟨3, .literal "outer"⟩, ⟨4, .unit⟩] ∧
      ∃ s' : FrameStack Unit,
        FrameStack.Plays {} (FrameStep.suspension frames ++ Cycle.history frames cycles)
          (FrameAnswer.suspension frames ++ Cycle.historyAnswers frames cycles) s' ∧
        s'.retained = 3 := by
  refine ⟨by decide, by decide, by decide, ?_⟩
  obtain ⟨s', plays, retained, -⟩ := suspension_cycles_round_trip ({} : FrameStack Unit) rfl rfl
    [⟨3, .literal "outer"⟩, ⟨7, .int64 5⟩] (by decide) (by decide)
    [⟨1, ⟨9, .unit⟩, [⟨2, .bool true⟩]⟩, ⟨2, ⟨4, .unit⟩, []⟩] (by decide)
  exact ⟨s', plays, retained⟩

end FrameStack

end ResumableTasks
