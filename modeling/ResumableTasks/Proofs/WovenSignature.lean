import Mathlib.Data.Fintype.EquivFin
import Mathlib.Data.List.Duplicate
import Mathlib.Data.Multiset.UnionInter
import ResumableTasks.Proofs.DeclarationOrder
/-!
The woven form of a routine among all signatures. Effects are compared by their number and by their
presence in one direction, so a signature passes for the woven form, too, if it has other effects in
the place of as many repeats. Of a routine that repeats no effect, exactly the woven form is
accepted, and where no candidate repeats one, a site without a line is answered as they are.
-/
namespace ResumableTasks

namespace Signature

variable {a b : List String} {s woven : Signature}

/-- What the first list has more often than the second, with the excess for its multiplicity. -/
def surplus (a b : List String) : Multiset String := (a : Multiset String) - b

theorem mem_surplus {e : String} : e ∈ surplus a b ↔ b.count e < a.count e := by
  rw [surplus, Multiset.mem_sub, Multiset.coe_count, Multiset.coe_count]

theorem length_eq_iff_card_surplus :
    a.length = b.length ↔ (surplus a b).card = (surplus b a).card := by
  -- What the two lists share counts alike for both.
  have whole := congrArg Multiset.card (Multiset.sub_add_inter (a : Multiset String) b)
  have whole' := congrArg Multiset.card (Multiset.sub_add_inter (b : Multiset String) a)
  rw [Multiset.inter_comm] at whole'
  simp only [Multiset.card_add, Multiset.coe_card] at whole whole'
  unfold surplus
  omega

theorem perm_of_surplus_eq_zero (length : a.length = b.length) (none : surplus a b = 0) :
    a.Perm b := by
  have within : (a : Multiset String) ≤ b := by
    refine Multiset.le_iff_count.mpr fun e => ?_
    rw [Multiset.coe_count, Multiset.coe_count, ← Nat.not_lt, ← mem_surplus, none]
    exact Multiset.notMem_zero e
  exact Multiset.coe_eq_coe.mp (Multiset.eq_of_le_of_card_le within length.ge)

theorem subset_iff_surplus_subset : a ⊆ b ↔ ∀ e ∈ surplus a b, e ∈ b := by
  constructor
  · intro within e more
    have declared : 0 < a.count e := Nat.zero_lt_of_lt (mem_surplus.mp more)
    exact within (List.count_pos_iff.mp declared)
  · intro again e declared
    by_contra missing
    refine missing (again e (mem_surplus.mpr ?_))
    rw [List.count_eq_zero.mpr missing]
    exact List.count_pos_iff.mpr declared

/-- The second list has other effects in the place of as many repeats of the first. -/
structure TradesRepeats (a b : List String) : Prop where
  traded : surplus a b ≠ 0
  as_many : (surplus a b).card = (surplus b a).card
  repeats : ∀ e ∈ surplus a b, e ∈ b

theorem TradesRepeats.not_perm (trade : TradesRepeats a b) : ¬ a.Perm b := by
  intro perm
  obtain ⟨e, more⟩ := Multiset.exists_mem_of_ne_zero trade.traded
  exact (mem_surplus.mp more).ne (perm.count_eq e).symm

theorem sameEffects_iff : sameEffects a b ↔ a.length = b.length ∧ a ⊆ b := by
  simp [sameEffects, List.subset_def]

theorem sameEffects_iff_perm_or_tradesRepeats :
    sameEffects a b ↔ a.Perm b ∨ TradesRepeats a b := by
  rw [sameEffects_iff]
  constructor
  · rintro ⟨length, within⟩
    by_cases none : surplus a b = 0
    · exact .inl (perm_of_surplus_eq_zero length none)
    · exact .inr ⟨none, length_eq_iff_card_surplus.mp length, subset_iff_surplus_subset.mp within⟩
  · rintro (perm | trade)
    · exact ⟨perm.length_eq, perm.subset⟩
    · exact ⟨length_eq_iff_card_surplus.mpr trade.as_many,
        subset_iff_surplus_subset.mpr trade.repeats⟩

theorem TradesRepeats.not_nodup (trade : TradesRepeats a b) : ¬ a.Nodup := by
  intro distinct
  obtain ⟨e, more⟩ := Multiset.exists_mem_of_ne_zero trade.traded
  have once : a.count e ≤ 1 := List.nodup_iff_count_le_one.mp distinct e
  have present : 0 < b.count e := List.count_pos_iff.mpr (trade.repeats e more)
  have fewer := mem_surplus.mp more
  omega

theorem exists_tradesRepeats (repeated : ¬ a.Nodup) : ∃ b, TradesRepeats a b := by
  obtain ⟨e, twice⟩ := List.exists_duplicate_iff_not_nodup.mpr repeated
  obtain ⟨fresh, undeclared⟩ := Infinite.exists_notMem_finset a.toFinset
  rw [List.mem_toFinset] at undeclared
  have kept : e ∈ a.erase e := by
    have twice' := List.duplicate_iff_two_le_count.mp twice
    rw [← List.count_pos_iff, List.count_erase_self]
    omega
  -- One occurrence goes, and as another one stays, every effect is still present.
  have same : sameEffects a (fresh :: a.erase e) := by
    refine sameEffects_iff.mpr ⟨?_, fun x declared => List.mem_cons_of_mem _ ?_⟩
    · rw [List.length_cons, List.length_erase_add_one twice.mem]
    · by_cases other : x = e
      · exact other ▸ kept
      · exact (List.mem_erase_of_ne other).mpr declared
  refine ⟨_, (sameEffects_iff_perm_or_tradesRepeats.mp same).resolve_left fun perm => ?_⟩
  exact undeclared (perm.symm.subset List.mem_cons_self)

structure Fits (s woven : Signature) : Prop where
  name : s.name = woven.name
  access : s.access = woven.access
  params : woven.params = s.params ++ [frameStackParam]

structure IsWovenInto (s woven : Signature) : Prop extends Fits s woven where
  effects : s.effects.Perm woven.effects

structure Disguised (s woven : Signature) : Prop extends Fits s woven where
  effects : TradesRepeats s.effects woven.effects

theorem isWovenPair_iff_fits :
    s.isWovenPair woven ↔ s.Fits woven ∧ sameEffects s.effects woven.effects := by
  simp only [isWovenPair, Bool.and_eq_true, decide_eq_true_eq]
  constructor
  · rintro ⟨⟨⟨name, access⟩, same⟩, params⟩
    exact ⟨⟨name, access, params⟩, same⟩
  · rintro ⟨⟨name, access, params⟩, same⟩
    exact ⟨⟨⟨name, access⟩, same⟩, params⟩

theorem isWovenPair_iff : s.isWovenPair woven ↔ s.IsWovenInto woven ∨ s.Disguised woven := by
  rw [isWovenPair_iff_fits, sameEffects_iff_perm_or_tradesRepeats]
  constructor
  · rintro ⟨fits, perm | trade⟩
    · exact .inl ⟨fits, perm⟩
    · exact .inr ⟨fits, trade⟩
  · rintro (⟨fits, perm⟩ | ⟨fits, trade⟩)
    · exact ⟨fits, .inl perm⟩
    · exact ⟨fits, .inr trade⟩

theorem Disguised.not_isWovenInto (disguised : s.Disguised woven) : ¬ s.IsWovenInto woven :=
  fun form => disguised.effects.not_perm form.effects

theorem IsWovenInto.hasEffect_eq (form : s.IsWovenInto woven) (effect : String) :
    s.hasEffect effect = woven.hasEffect effect := by
  rw [Bool.eq_iff_iff, hasEffect, hasEffect, List.contains_iff_mem, List.contains_iff_mem]
  exact form.effects.mem_iff

structure Recognised (s woven : Signature) : Prop where
  form : s.isWovenPair woven ↔ s.IsWovenInto woven
  effects : s.isWovenPair woven → ∀ effect, s.hasEffect effect = woven.hasEffect effect
  capability : s.isWovenPair woven → s.isPausable = woven.isPausable
  oneWay : ¬ (s.isWovenPair woven ∧ woven.isWovenPair s)

theorem recognised_iff_not_disguised : s.Recognised woven ↔ ¬ s.Disguised woven := by
  constructor
  · intro recognised disguised
    have accepted := isWovenPair_iff.mpr (.inr disguised)
    exact disguised.not_isWovenInto (recognised.form.mp accepted)
  · intro plain
    have form : s.isWovenPair woven ↔ s.IsWovenInto woven := by
      rw [isWovenPair_iff, or_iff_left plain]
    exact {
      form
      effects := fun pair => (form.mp pair).hasEffect_eq
      capability := fun pair => (form.mp pair).hasEffect_eq pausableEffect
      oneWay := fun both => isWovenPair_asymm both.1 both.2 }

theorem exists_disguised (repeated : ¬ s.effects.Nodup) : ∃ woven, s.Disguised woven := by
  obtain ⟨effects, trade⟩ := exists_tradesRepeats repeated
  exact ⟨{ s with params := s.params ++ [frameStackParam], effects }, ⟨rfl, rfl, rfl⟩, trade⟩

/-- Whether a signature is the woven form of a routine is told rightly exactly if it does not trade
repeats of the routine's effects for others; and it is told rightly of every signature exactly if
the routine repeats no effect. -/
theorem woven_form_is_recognised_iff (s : Signature) :
    (∀ woven, s.Recognised woven ↔ ¬ s.Disguised woven) ∧
      ((∀ woven, s.Recognised woven) ↔ s.effects.Nodup) := by
  refine ⟨fun _ => recognised_iff_not_disguised, ?_⟩
  constructor
  · intro all
    by_contra repeated
    obtain ⟨woven, disguised⟩ := exists_disguised repeated
    exact recognised_iff_not_disguised.mp (all woven) disguised
  · intro distinct woven
    exact recognised_iff_not_disguised.mpr fun disguised => disguised.effects.not_nodup distinct

theorem traded_effect_is_accepted :
    let original : Signature := { name := "f", effects := ["Io", "Io"] }
    let woven : Signature :=
      { name := "f", params := [frameStackParam], effects := ["Io", "Pausable"] }
    original.isWovenPair woven ∧ ¬ original.IsWovenInto woven ∧
      original.isPausable = false ∧ woven.isPausable = true ∧ ¬ original.Recognised woven := by
  intro original woven
  have accepted : original.isWovenPair woven := by decide
  have other : ¬ original.IsWovenInto woven := fun form =>
    absurd (form.effects.count_eq "Io") (by decide)
  exact ⟨accepted, other, by decide, by decide, fun all => other (all.form.mp accepted)⟩

end Signature

namespace Catalog

theorem Misread.exists_disguised {candidates : List Signature} (misread : Misread candidates) :
    ∃ s ∈ candidates, ∃ woven ∈ candidates, s.Disguised woven := by
  obtain ⟨original, woven, order, pair, incapable, capable⟩ := misread
  have listed : original ∈ candidates ∧ woven ∈ candidates := by
    rcases order with rfl | rfl <;> simp
  refine ⟨original, listed.1, woven, listed.2, ?_⟩
  refine (Signature.isWovenPair_iff.mp pair).resolve_left fun form => ?_
  exact incapable ((form.hasEffect_eq Signature.pausableEffect).trans capable)

theorem resolve_reflects_of_nodup {c : Catalog} {site : CallSite} {candidates : List Signature}
    (known : c.candidates site.path site.routine = .ok candidates)
    (unlined : site.knownLine = none) (distinct : ∀ s ∈ candidates, s.effects.Nodup) :
    Reflects candidates (c.resolve site).1 := by
  refine (resolve_reflects_iff known unlined).mpr fun misread => ?_
  obtain ⟨s, listed, woven, -, disguised⟩ := misread.exists_disguised
  exact disguised.effects.not_nodup (distinct s listed)

end Catalog

end ResumableTasks
