import ResumableTasks.Proofs.MemoizedClassification
/-!
Candidates of one name that disagree. Without a line to tell them apart, a site counts as able to
suspend as soon as one candidate can, and a disagreement is reported once. One case escapes: a
routine and its woven form are told to be the same by a comparison of effects that looks in one
direction only, so a repeated effect of the first can hide that the second is able to suspend.
-/
namespace ResumableTasks

theorem Signature.isPausable_of_isWovenPair {s woven : Signature} (pair : s.isWovenPair woven)
    (pausable : s.isPausable) : woven.isPausable := by
  simp only [isWovenPair, sameEffects, Bool.and_eq_true, List.all_eq_true] at pair
  exact pair.1.2.2 _ (List.contains_iff_mem.mp pausable)

namespace Catalog

structure Reflects (candidates : List Signature) (answer : Classification) : Prop where
  capable : answer.maySuspend ↔ ∃ s ∈ candidates, s.isPausable
  mixed : (∃ s ∈ candidates, s.isPausable) → (∃ s ∈ candidates, ¬ s.isPausable) →
    answer = .ambiguousResolvedCapable

/-- The candidates are a routine that cannot suspend and, in either order, what is taken for its
woven form and can. -/
def Misread (candidates : List Signature) : Prop :=
  ∃ original woven, (candidates = [original, woven] ∨ candidates = [woven, original]) ∧
    original.isWovenPair woven ∧ ¬ original.isPausable ∧ woven.isPausable

theorem resolveByAll_reflects (site : CallSite) (candidates : List Signature) :
    Reflects candidates (resolveByAll site candidates).1 := by
  have none_capable : candidates.countP Signature.isPausable = 0 ↔
      ¬ ∃ s ∈ candidates, s.isPausable := by simp [List.countP_eq_zero]
  have all_capable : candidates.countP Signature.isPausable = candidates.length ↔
      ¬ ∃ s ∈ candidates, ¬ s.isPausable := by simp [List.countP_eq_length]
  simp only [resolveByAll, none_capable, all_capable]
  split
  · next incapable =>
    exact ⟨by simpa [Classification.maySuspend] using incapable,
      fun capable => absurd capable incapable⟩
  · next capable =>
    split
    · next uniform =>
      exact ⟨iff_of_true rfl (not_not.mp capable), fun _ other => absurd other uniform⟩
    · exact ⟨iff_of_true rfl (not_not.mp capable), fun _ _ => rfl⟩

theorem reflects_ofPausable {candidates : List Signature} {pausable : Bool}
    (agree : ∀ s ∈ candidates, s.isPausable = pausable) (known : candidates ≠ []) :
    Reflects candidates (.ofPausable pausable) := by
  obtain ⟨s, listed⟩ := List.exists_mem_of_ne_nil candidates known
  cases pausable with
  | false =>
    refine ⟨by simpa [Classification.ofPausable, Classification.maySuspend] using agree, ?_⟩
    rintro ⟨other, among, capable⟩ -
    exact absurd capable (by simp [agree other among])
  | true =>
    refine ⟨iff_of_true rfl ⟨s, listed, agree s listed⟩, ?_⟩
    rintro - ⟨other, among, incapable⟩
    exact absurd (agree other among) incapable

theorem not_misread_of_length {candidates : List Signature} (other : candidates.length ≠ 2) :
    ¬ Misread candidates := by
  rintro ⟨original, woven, rfl | rfl, -⟩ <;> exact other rfl

theorem reflects_pair_iff {original woven : Signature} {candidates : List Signature}
    (pair : original.isWovenPair woven)
    (order : candidates = [original, woven] ∨ candidates = [woven, original]) :
    Reflects candidates (.ofPausable original.isPausable) ↔ ¬ Misread candidates := by
  have listed (s : Signature) : s ∈ candidates ↔ s = original ∨ s = woven := by
    rcases order with rfl | rfl <;> simp [or_comm]
  constructor
  · rintro reflects ⟨o, w, listed_as, -, incapable, capable⟩
    have both (s : Signature) : s ∈ candidates ↔ s = o ∨ s = w := by
      rcases listed_as with same | same <;> simp [same, or_comm]
    have one_capable := reflects.capable.mpr ⟨w, (both w).mpr (.inr rfl), capable⟩
    have first : original.isPausable := by
      cases said : original.isPausable with
      | true => rfl
      | false => simp [said, Classification.ofPausable, Classification.maySuspend] at one_capable
    -- Both parts are able to suspend then, and so is the one that was not.
    rcases (listed o).mp ((both o).mpr (.inl rfl)) with rfl | rfl
    · exact incapable first
    · exact incapable (Signature.isPausable_of_isWovenPair pair first)
  · intro sound
    refine reflects_ofPausable (fun s among => ?_) (List.ne_nil_of_mem ((listed _).mpr (.inl rfl)))
    rcases (listed s).mp among with rfl | rfl
    · rfl
    · by_contra differ
      have incapable : ¬ original.isPausable := fun first =>
        differ ((Signature.isPausable_of_isWovenPair pair first).trans first.symm)
      have capable : s.isPausable := by simpa [incapable] using differ
      exact sound ⟨original, s, order, pair, incapable, capable⟩

theorem resolve_reflects_iff {c : Catalog} {site : CallSite} {candidates : List Signature}
    (known : c.candidates site.path site.routine = .ok candidates)
    (unlined : site.knownLine = none) :
    Reflects candidates (c.resolve site).1 ↔ ¬ Misread candidates := by
  have byAll : Reflects candidates (c.resolveMany site candidates).1 := by
    simpa only [resolveMany, unlined] using resolveByAll_reflects site candidates
  rcases candidates with _ | ⟨a, _ | ⟨b, _ | ⟨d, rest⟩⟩⟩
  · simp only [resolve, known]
    exact iff_of_true ⟨by simp [Classification.maySuspend], by simp⟩
      (not_misread_of_length (by simp))
  · simp only [resolve, known]
    exact iff_of_true (reflects_ofPausable (by simp) (by simp)) (not_misread_of_length (by simp))
  · simp only [resolve, known]
    split
    · next pair => exact reflects_pair_iff pair (.inl rfl)
    · split
      · next pair => exact reflects_pair_iff pair (.inr rfl)
      · next unpaired unpaired' =>
        refine iff_of_true byAll ?_
        rintro ⟨original, woven, same | same, pair, -⟩
        · obtain ⟨rfl, rfl, -⟩ := by simpa only [List.cons.injEq] using same
          exact unpaired pair
        · obtain ⟨rfl, rfl, -⟩ := by simpa only [List.cons.injEq] using same
          exact unpaired' pair
  · simp only [resolve, known]
    exact iff_of_true byAll (not_misread_of_length (by simp))

end Catalog

theorem Inquiry.ambiguities_of_site (past : List Inquiry) (asked : CallSite) :
    (ambiguities past).filter (·.site = asked) =
      ((past.find? (·.site = asked)).toList.filter
        (·.answer = .ambiguousResolvedCapable)).map ambiguity := by
  rw [← filter_firsts, ambiguities, List.filter_map, List.filter_filter, List.filter_filter]
  refine congrArg _ (List.filter_congr fun i _ => ?_)
  rw [Bool.and_comm]
  rfl

namespace Classifier

structure Shows (site : CallSite) (candidates : List Signature)
    (classified : Classification × Classifier) : Prop where
  capable : classified.1.maySuspend ↔ ∃ s ∈ candidates, s.isPausable
  mixed : (∃ s ∈ candidates, s.isPausable) → (∃ s ∈ candidates, ¬ s.isPausable) →
    classified.1 = .ambiguousResolvedCapable ∧
      classified.2.ambiguities.filter (·.site = site) =
        [⟨site, candidates.length, candidates.countP Signature.isPausable⟩]

theorem classify_after (catalog : Catalog) (config : ClassifierConfig)
    (calls : List ClassifierCall) (site : CallSite) :
    let past := ClassifierCall.inquiries config catalog (calls ++ [.classify site])
    let classified := (({ catalog, config } : Classifier).answerAll calls).2.classify site
    classified.1 = Inquiry.settled past site ∧
      classified.2.ambiguities = Inquiry.ambiguities past := by
  intro past classified
  obtain ⟨remembers, answers⟩ :=
    (remembers_nothing catalog config).answerAll (calls ++ [.classify site])
  rw [answerAll_concat] at remembers answers
  rw [List.map_append] at answers
  have last := List.append_inj_right' answers rfl
  exact ⟨by simpa [Classifier.answer, ClassifierCall.answerBy] using last, remembers.ambiguities⟩

/-- After any history a site without a line is classified as the candidates in the catalog of its
first inquiry are, with one record of a disagreement, exactly if they are no misread pair. -/
theorem disagreement_shown_iff (catalog : Catalog) (config : ClassifierConfig)
    (calls : List ClassifierCall) {site : CallSite} {candidates : List Signature}
    (unlined : site.line = none ∨ site.line = some 0)
    (known : (Inquiry.catalogOf (ClassifierCall.inquiries config catalog
      (calls ++ [.classify site])) site).candidates site.path site.routine = .ok candidates) :
    Shows site candidates
        ((({ catalog, config } : Classifier).answerAll calls).2.classify site) ↔
      ¬ Catalog.Misread candidates := by
  have no_line : site.knownLine = none := by
    rcases unlined with absent | zero
    · simp [CallSite.knownLine, absent]
    · simp [CallSite.knownLine, zero]
  obtain ⟨answered, recorded⟩ := classify_after catalog config calls site
  cases found : (ClassifierCall.inquiries config catalog (calls ++ [.classify site])).find?
      (·.site = site) with
  | none => simp [Inquiry.catalogOf, found, Catalog.candidates, Catalog.module?] at known
  | some first =>
    have about : first.site = site := by simpa using List.find?_some found
    have moment : Inquiry.catalogOf (ClassifierCall.inquiries config catalog
        (calls ++ [.classify site])) site = first.catalog := by
      simp [Inquiry.catalogOf, found]
    rw [moment] at known
    rw [Inquiry.settled_of_find? found, Inquiry.answer, about] at answered
    rw [← Catalog.resolve_reflects_iff known no_line, ← answered]
    constructor
    · rintro ⟨capable, mixed⟩
      exact ⟨capable, fun some_can some_cannot => (mixed some_can some_cannot).1⟩
    · rintro ⟨capable, mixed⟩
      refine ⟨capable, fun some_can some_cannot => ⟨mixed some_can some_cannot, ?_⟩⟩
      have said : first.answer = .ambiguousResolvedCapable := by
        rw [Inquiry.answer, about, ← answered]
        exact mixed some_can some_cannot
      have namesakes : first.catalog.namesakes site = candidates := by
        simp [Catalog.namesakes, known, Except.toOption]
      rw [recorded, Inquiry.ambiguities_of_site, found]
      simp [said, Inquiry.ambiguity, about, namesakes]

theorem overloads_are_shown :
    let site : CallSite := { path := "app", routine := "f" }
    let one : Signature := { name := "f", effects := ["Pausable"] }
    let other : Signature := { name := "f", params := ["i32"] }
    let catalog := ({} : Catalog).declareAll [.routine "app" one none, .routine "app" other none]
    catalog.candidates "app" "f" = .ok [one, other] ∧
      Shows site [one, other]
        ((({ catalog } : Classifier).answerAll [.classify site]).2.classify site) := by
  intro site one other catalog
  refine ⟨rfl, (disagreement_shown_iff catalog {} [.classify site] (.inl rfl) rfl).mpr ?_⟩
  rintro ⟨original, woven, same | same, pair, -⟩
  · obtain ⟨first, second, -⟩ := by simpa only [List.cons.injEq] using same
    rw [← first, ← second] at pair
    exact absurd pair (by decide)
  · obtain ⟨first, second, -⟩ := by simpa only [List.cons.injEq] using same
    rw [← first, ← second] at pair
    exact absurd pair (by decide)

theorem repeated_effect_hides_capability :
    let site : CallSite := { path := "app", routine := "f" }
    let original : Signature := { name := "f", effects := ["Io", "Io"] }
    let woven : Signature :=
      { name := "f", params := [Signature.frameStackParam], effects := ["Io", "Pausable"] }
    let catalog :=
      ({} : Catalog).declareAll [.routine "app" original none, .routine "app" woven none]
    let classified := ({ catalog } : Classifier).classify site
    catalog.candidates "app" "f" = .ok [original, woven] ∧
      classified.1 = .notCapable ∧ classified.2.ambiguities = [] ∧
      ¬ Shows site [original, woven] classified := by
  intro site original woven catalog classified
  have silent : classified.1 = .notCapable := by decide
  refine ⟨rfl, silent, by decide, fun shown => ?_⟩
  have capable := shown.capable.mpr ⟨woven, by simp, by decide⟩
  rw [silent] at capable
  exact absurd capable (by decide)

end Classifier

end ResumableTasks
