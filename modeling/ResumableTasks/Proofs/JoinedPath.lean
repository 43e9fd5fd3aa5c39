import ResumableTasks.Classifier.StackDepth
import ResumableTasks.Proofs.SeparatedText
/-!
The path of a call site with its routine. Whether this text begins with a lead is decided without
putting it together: a lead that goes beyond the path has to go on with the separator and the
beginning of the routine. That misses the one lead that ends between the two colons.
-/
namespace ResumableTasks.CallSite

open Text

def joined (s : CallSite) : String := s.path ++ "::" ++ s.routine

theorem joined_toList (s : CallSite) :
    s.joined.toList = s.path.toList ++ ([':', ':'] ++ s.routine.toList) := by
  simp [joined]

theorem hasLead_iff {lead cs : List Char} : hasLead lead cs = true ↔ lead <+: cs := by
  rw [hasLead, Option.isSome_iff_exists]
  simp only [stripLead?_eq_some_iff]
  exact exists_congr fun rest => eq_comm

theorem pathStartsWith_within {s : CallSite} {lead : String}
    (within : ∀ c rest, lead.toList ≠ s.path.toList ++ c :: rest) :
    s.pathStartsWith lead = true ↔ lead.toList <+: s.path.toList := by
  unfold pathStartsWith
  split
  · next c rest beyond => exact absurd (stripLead?_eq_some_iff.mp beyond) (within c rest)
  · exact hasLead_iff

theorem pathStartsWith_beyond {s : CallSite} {lead : String} {c : Char} {rest : List Char}
    (beyond : lead.toList = s.path.toList ++ c :: rest) :
    s.pathStartsWith lead = true ↔
      ∃ part, c :: rest = [':', ':'] ++ part ∧ part <+: s.routine.toList := by
  have cut : stripLead? s.path.toList lead.toList = some (c :: rest) :=
    stripLead?_eq_some_iff.mpr beyond
  simp only [pathStartsWith, cut]
  -- What a lead has beyond the path must begin with the separator.
  cases found : stripLead? [':', ':'] (c :: rest) with
  | none =>
    have unled := stripLead?_eq_none_iff.mp found
    refine iff_of_false Bool.false_ne_true ?_
    rintro ⟨part, led, -⟩
    exact unled ⟨part, led.symm⟩
  | some part =>
    have led := stripLead?_eq_some_iff.mp found
    rw [led]
    simp only [List.append_cancel_left_eq, exists_eq_left', hasLead_iff]

theorem leads_separator_iff {c : Char} {rest routine : List Char} :
    c :: rest <+: [':', ':'] ++ routine ↔
      c :: rest = [':'] ∨ ∃ part, c :: rest = [':', ':'] ++ part ∧ part <+: routine := by
  cases rest with
  | nil => simp
  | cons d part => simp [and_assoc]

theorem leads_joined_iff (s : CallSite) (lead : String) :
    lead.toList <+: s.joined.toList ↔
      s.pathStartsWith lead = true ∨ lead = s.path ++ ":" := by
  rw [joined_toList]
  by_cases beyond : ∃ c rest, lead.toList = s.path.toList ++ c :: rest
  · obtain ⟨c, rest, beyond⟩ := beyond
    -- A single colon begins the separator in the joined text, but the test on the parts refuses
    -- it.
    have between : lead = s.path ++ ":" ↔ c :: rest = [':'] := by
      rw [← String.toList_inj, beyond]
      simp
    rw [pathStartsWith_beyond beyond, between, beyond, List.prefix_append_right_inj,
      leads_separator_iff, or_comm]
  · have within : ∀ c rest, lead.toList ≠ s.path.toList ++ c :: rest :=
      fun c rest same => beyond ⟨c, rest, same⟩
    have other : lead ≠ s.path ++ ":" := by
      rintro rfl
      exact within ':' [] (by simp)
    rw [pathStartsWith_within within, or_iff_left other]
    constructor
    · intro led
      rcases List.prefix_or_prefix_of_prefix led (List.prefix_append _ _) with short | ⟨rest, long⟩
      · exact short
      · cases rest with
        | nil => simp [← long]
        | cons c rest => exact absurd long.symm (within c rest)
    · exact fun led => led.trans (List.prefix_append _ _)

theorem between_colons_is_refused (s : CallSite) : s.pathStartsWith (s.path ++ ":") = false := by
  have beyond : (s.path ++ ":").toList = s.path.toList ++ [':'] := by simp
  rw [Bool.eq_false_iff, ne_eq, pathStartsWith_beyond beyond]
  rintro ⟨part, led, -⟩
  simp at led

/-- To test a lead on path and routine is to look for it at the beginning of the joined text,
exactly if it is not the path with one colon. -/
theorem joined_path_is_tested_iff (s : CallSite) (lead : String) :
    (s.pathStartsWith lead = true ↔ lead.toList <+: s.joined.toList) ↔ lead ≠ s.path ++ ":" := by
  rw [leads_joined_iff]
  constructor
  · rintro tested rfl
    have accepted := tested.mpr (.inr rfl)
    rw [between_colons_is_refused] at accepted
    exact Bool.false_ne_true accepted
  · intro other
    exact (or_iff_left other).symm

theorem lead_ending_in_separator_is_missed :
    let site : CallSite := { path := "app", routine := "run" }
    "app:".toList <+: site.joined.toList ∧ site.pathStartsWith "app:" = false ∧
      ({ config := { notCounted := ["app:"] } } : Classifier).isInfrastructure site = false := by
  decide +kernel

end ResumableTasks.CallSite
