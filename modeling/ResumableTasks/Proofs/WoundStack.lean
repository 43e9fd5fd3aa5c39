import ResumableTasks.FrameStack
/-!
A wound stack seen from its current frame: the slots below, the frame's own slot, the slots above.
Each operation changes the frame's own slot, or moves one slot up or down.
-/
namespace ResumableTasks

variable {ρ : Type}

namespace Slot

def shown : Option (Slot ρ) → UInt32
  | some slot => slot.marker
  | none => freshMarker

def Blank (slots : List (Option (Slot ρ))) : Prop := ∀ slot ∈ slots, slot = none

theorem blank_cons_iff {slot : Option (Slot ρ)} {slots : List (Option (Slot ρ))} :
    Blank (slot :: slots) ↔ slot = none ∧ Blank slots := by simp [Blank]

theorem blank_tail {slots : List (Option (Slot ρ))} (blank : Blank slots) : Blank slots.tail :=
  fun slot member => blank slot (List.mem_of_mem_tail member)

theorem blank_head {slots : List (Option (Slot ρ))} (blank : Blank slots) :
    slots.headD none = none := by
  cases slots with
  | nil => rfl
  | cons slot rest => exact blank slot (by simp)

theorem blank_iff_countP_zero {slots : List (Option (Slot ρ))} :
    slots.countP Option.isSome = 0 ↔ Blank slots := by
  simp [List.countP_eq_zero, Blank]

end Slot

namespace FrameStack

open Slot

/-- The stack that is wound to a frame with `own` in its slot. -/
def wound (below : List (Option (Slot ρ))) (own : Option (Slot ρ))
    (above : List (Option (Slot ρ))) (marker : UInt32) (pausing : Bool) : FrameStack ρ :=
  { slots := below ++ own :: above, depth := below.length + 1, marker, pausing }

section

variable (below : List (Option (Slot ρ))) (own caller : Option (Slot ρ))
  (above : List (Option (Slot ρ))) (marker : UInt32) (pausing : Bool)

@[simp]
theorem depth_wound : (wound below own above marker pausing).depth = below.length + 1 := rfl

@[simp]
theorem marker_wound : (wound below own above marker pausing).marker = marker := rfl

@[simp]
theorem pausing_wound : (wound below own above marker pausing).pausing = pausing := rfl

@[simp]
theorem current_wound : (wound below own above marker pausing).current = own := by
  simp [current, slotAt, wound]

theorem retained_wound : (wound below own above marker pausing).retained =
    (below ++ own :: above).countP Option.isSome := rfl

theorem setSlot_wound (slot : Option (Slot ρ)) :
    (wound below own above marker pausing).setSlot below.length slot =
      wound below slot above marker pausing := by
  simp [setSlot, wound]

theorem enter_wound : (wound below own above marker pausing).enter =
    wound (below ++ [own]) (above.headD none) above.tail (shown (above.headD none)) pausing := by
  cases above with
  | nil =>
    simp [enter, wound, markerAt, slotAt, shown]
  | cons slot rest =>
    cases slot <;> simp [enter, wound, markerAt, slotAt, shown]

theorem enter_wound_blank (blank : Blank above) : (wound below own above marker pausing).enter =
    wound (below ++ [own]) none above.tail freshMarker pausing := by
  rw [enter_wound, blank_head blank]
  rfl

theorem leave_wound_pausing :
    (wound (below ++ [caller]) own above marker true).leave =
      .ok (⟨true, caller.isSome⟩, wound below caller (own :: above) (shown caller) true) := by
  cases caller <;> simp [leave, wound, markerAt, slotAt, shown]

theorem leave_wound_live :
    (wound (below ++ [caller]) own above marker false).leave =
      .ok (⟨false, caller.isSome⟩, wound below none (none :: above) freshMarker false) := by
  simp [leave, wound, slotAt]

theorem capture_wound {saved : UInt32} (legal : saved ≠ freshMarker ∧ saved ≠ pauseMarker)
    (state : Captured ρ) : (wound below own above marker pausing).capture saved state =
      .ok (wound below (some (.saved saved state)) above marker true) := by
  have unreserved : ¬ (saved = freshMarker ∨ saved = pauseMarker) := not_or.mpr legal
  simp only [capture, depth_wound, Nat.add_one_ne_zero, ↓reduceIte, unreserved,
    Nat.add_sub_cancel, setSlot_wound]
  rfl

theorem state_wound_saved {α : Type} (expected : Expectation ρ α) (saved : UInt32)
    (state : Captured ρ) {content : α} (fits : expected.read state = some content) :
    (wound below (some (.saved saved state)) above marker pausing).state expected =
      .ok content := by
  simp [FrameStack.state, fits]

theorem take_wound_saved {α : Type} (expected : Expectation ρ α) (saved : UInt32)
    (state : Captured ρ) {content : α} (fits : expected.read state = some content) :
    (wound below (some (.saved saved state)) above marker pausing).take expected =
      .ok (content, wound below none above marker pausing) := by
  simp only [take, state_wound_saved _ _ _ _ expected saved state fits, Except.map, depth_wound,
    Nat.add_sub_cancel, setSlot_wound]

theorem togglePause_wound_none : (wound below none above marker pausing).togglePause =
    .ok (wound below (some .pause) above marker true) := by
  simp only [togglePause, depth_wound, Nat.add_one_ne_zero, ↓reduceIte, current_wound,
    Nat.add_sub_cancel, setSlot_wound]
  rfl

theorem togglePause_wound_pause :
    (wound below (some .pause) above marker pausing).togglePause =
      .ok (wound below none above marker false) := by
  simp only [togglePause, depth_wound, Nat.add_one_ne_zero, ↓reduceIte, current_wound,
    Nat.add_sub_cancel, setSlot_wound]
  rfl

theorem begin_unwound {s : FrameStack ρ} (unwound : s.depth = 0) :
    s.begin = .ok (wound [] (s.slots.headD none) s.slots.tail (shown (s.slots.headD none))
      false) := by
  obtain ⟨slots, depth, old, pausing⟩ := s
  obtain rfl : depth = 0 := unwound
  cases slots with
  | nil => simp [begin, enter, wound, markerAt, slotAt, shown]
  | cons slot rest => cases slot <;> simp [begin, enter, wound, markerAt, slotAt, shown]

theorem finish_wound : (wound [] own above marker pausing).finish =
    .ok (pausing, { slots := if pausing then own :: above else [] }) := by
  simp [finish, wound]

end

end FrameStack

structure SavedFrame where
  marker : UInt32
  locals : Value
  deriving DecidableEq, Repr

namespace SavedFrame

def Legal (f : SavedFrame) : Prop := f.marker ≠ freshMarker ∧ f.marker ≠ pauseMarker

instance (f : SavedFrame) : Decidable f.Legal := inferInstanceAs (Decidable (_ ∧ _))

def slot (f : SavedFrame) : Option (Slot ρ) := some (.saved f.marker (.value f.locals))

/-- The marker that is shown where these frames begin: the outermost one's, and the sentinel's when
there is none left. -/
def nextMarker : List SavedFrame → UInt32
  | [] => pauseMarker
  | f :: _ => f.marker

theorem enter_saved (below : List (Option (Slot ρ))) (own : Option (Slot ρ)) (first : SavedFrame)
    (deeper : List SavedFrame) (spare : List (Option (Slot ρ))) (marker : UInt32) :
    (FrameStack.wound below own ((first :: deeper).map slot ++ some Slot.pause :: spare) marker
        false).enter =
      .wound (below ++ [own]) first.slot (deeper.map slot ++ some Slot.pause :: spare)
        first.marker false := by
  rw [List.map_cons, List.cons_append, FrameStack.enter_wound]
  rfl

theorem shown_slots (frames : List SavedFrame) (spare : List (Option (Slot ρ))) :
    Slot.shown ((frames.map slot ++ some Slot.pause :: spare).headD none) = nextMarker frames := by
  cases frames <;> rfl

end SavedFrame

/-- The stack between two re-entries of a suspended task: the saved frames from the entry frame
inwards, the sentinel, and nothing above. -/
def FrameStack.Parked (frames : List SavedFrame) (s : FrameStack ρ) : Prop :=
  s.depth = 0 ∧ ∃ spare, Slot.Blank spare ∧ s.slots = frames.map SavedFrame.slot ++
    some Slot.pause :: spare

theorem FrameStack.retained_parked {frames : List SavedFrame} {s : FrameStack ρ}
    (parked : s.Parked frames) : s.retained = frames.length + 1 := by
  obtain ⟨-, spare, blank, slots⟩ := parked
  have saved : (frames.map (SavedFrame.slot (ρ := ρ))).countP Option.isSome = frames.length := by
    rw [List.countP_map]
    exact (List.countP_eq_length.mpr fun f _ => rfl)
  simp [retained, slots, saved, Slot.blank_iff_countP_zero.mpr blank]

end ResumableTasks
