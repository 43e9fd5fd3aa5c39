import Mathlib.Data.Finset.Card
import Mathlib.Data.Finset.Dedup
import ResumableTasks.Classifier.History
/-!
Classification over whole histories. A history of declarations and questions makes a row of
inquiries: the sites that the classifier is asked for, directly or on the way of a walk, each with
the catalog of that moment. The first inquiry about a site decides its answer for good; ambiguities
and counters are read off the row.
-/
namespace ResumableTasks

namespace Catalog

theorem ofPausable_ne_ambiguous (pausable : Bool) :
    Classification.ofPausable pausable ≠ .ambiguousResolvedCapable := by
  cases pausable <;> simp [Classification.ofPausable]

theorem resolveByAll_ambiguity (site : CallSite) (candidates : List Signature) :
    (resolveByAll site candidates).2 =
      if (resolveByAll site candidates).1 = .ambiguousResolvedCapable then
        some ⟨site, candidates.length, candidates.countP Signature.isPausable⟩
      else none := by
  simp only [resolveByAll]
  split
  · rfl
  · split <;> rfl

theorem resolveByLine_ambiguity (c : Catalog) (site : CallSite) (line : UInt32)
    (candidates : List Signature) :
    (c.resolveByLine site line candidates).2 =
      if (c.resolveByLine site line candidates).1 = .ambiguousResolvedCapable then
        some ⟨site, candidates.length, candidates.countP Signature.isPausable⟩
      else none := by
  rcases found : c.locate site.path line with _ | _ | located
  · simpa only [resolveByLine, found] using resolveByAll_ambiguity site candidates
  · simpa only [resolveByLine, found] using resolveByAll_ambiguity site candidates
  · simp only [resolveByLine, found]
    split
    · simp [ofPausable_ne_ambiguous]
    · exact resolveByAll_ambiguity site candidates

theorem resolveMany_ambiguity (c : Catalog) (site : CallSite) (candidates : List Signature) :
    (c.resolveMany site candidates).2 =
      if (c.resolveMany site candidates).1 = .ambiguousResolvedCapable then
        some ⟨site, candidates.length, candidates.countP Signature.isPausable⟩
      else none := by
  cases known : site.knownLine with
  | none => simpa only [resolveMany, known] using resolveByAll_ambiguity site candidates
  | some line =>
    simpa only [resolveMany, known] using c.resolveByLine_ambiguity site line candidates

def namesakes (c : Catalog) (site : CallSite) : List Signature :=
  (c.candidates site.path site.routine).toOption.getD []

theorem resolve_ambiguity (c : Catalog) (site : CallSite) :
    (c.resolve site).2 =
      if (c.resolve site).1 = .ambiguousResolvedCapable then
        some ⟨site, (c.namesakes site).length, (c.namesakes site).countP Signature.isPausable⟩
      else none := by
  cases found : c.candidates site.path site.routine with
  | error e => simp [resolve, found]
  | ok candidates =>
    have same : c.namesakes site = candidates := by simp [namesakes, found, Except.toOption]
    rw [same]
    match candidates with
    | [] => simp [resolve, found]
    | [only] => simp [resolve, found, ofPausable_ne_ambiguous]
    | [a, b] =>
      simp only [resolve, found]
      split
      · simp [ofPausable_ne_ambiguous]
      · split
        · simp [ofPausable_ne_ambiguous]
        · exact c.resolveMany_ambiguity site [a, b]
    | a :: b :: d :: rest =>
      simp only [resolve, found]
      exact c.resolveMany_ambiguity site (a :: b :: d :: rest)

end Catalog

/-- A site that a classifier is asked for, with the catalog as it stands then. -/
structure Inquiry where
  site : CallSite
  catalog : Catalog

namespace Inquiry

def answer (i : Inquiry) : Classification := (i.catalog.resolve i.site).1

def ambiguity (i : Inquiry) : Ambiguity :=
  ⟨i.site, (i.catalog.namesakes i.site).length,
    (i.catalog.namesakes i.site).countP Signature.isPausable⟩

def firsts : List Inquiry → List Inquiry
  | [] => []
  | i :: rest => i :: (firsts rest).filter (·.site ≠ i.site)

def catalogOf (past : List Inquiry) (site : CallSite) : Catalog :=
  ((past.find? (·.site = site)).map Inquiry.catalog).getD {}

def settled (past : List Inquiry) (site : CallSite) : Classification :=
  ((catalogOf past site).resolve site).1

def ambiguities (past : List Inquiry) : List Ambiguity :=
  ((firsts past).filter (·.answer = .ambiguousResolvedCapable)).map ambiguity

def sites (past : List Inquiry) : Finset CallSite := (past.map Inquiry.site).toFinset

theorem firsts_append (past : List Inquiry) (i : Inquiry) :
    firsts (past ++ [i]) =
      if i.site ∈ past.map Inquiry.site then firsts past else firsts past ++ [i] := by
  induction past with
  | nil => simp [firsts]
  | cons j rest ih =>
    simp only [List.cons_append, firsts, ih, List.map_cons, List.mem_cons]
    by_cases later : i.site ∈ rest.map Inquiry.site
    · rw [if_pos later, if_pos (Or.inr later)]
    · rw [if_neg later, List.filter_append]
      by_cases here : i.site = j.site
      · rw [if_pos (Or.inl here)]
        simp [here]
      · rw [if_neg (not_or.mpr ⟨here, later⟩)]
        simp [here]

theorem find?_eq_none_iff (past : List Inquiry) (site : CallSite) :
    past.find? (·.site = site) = none ↔ site ∉ past.map Inquiry.site := by
  simp [List.find?_eq_none]

theorem settled_append {past : List Inquiry} {site : CallSite}
    (asked : site ∈ past.map Inquiry.site) (later : List Inquiry) :
    settled (past ++ later) site = settled past site := by
  cases found : past.find? (·.site = site) with
  | none => exact absurd asked ((find?_eq_none_iff past site).mp found)
  | some i => simp [settled, catalogOf, List.find?_append, found]

theorem settled_of_find? {past : List Inquiry} {site : CallSite} {i : Inquiry}
    (found : past.find? (·.site = site) = some i) : settled past site = i.answer := by
  have about : i.site = site := by simpa using List.find?_some found
  simp [settled, catalogOf, found, answer, about]

theorem ambiguities_append (past : List Inquiry) (i : Inquiry) :
    ambiguities (past ++ [i]) =
      if i.site ∈ past.map Inquiry.site then ambiguities past
      else ambiguities past ++ (i.catalog.resolve i.site).2.toList := by
  simp only [ambiguities, firsts_append]
  split
  · rfl
  · rw [List.filter_append, List.map_append, i.catalog.resolve_ambiguity i.site]
    by_cases said : i.answer = .ambiguousResolvedCapable
    · have said' : (i.catalog.resolve i.site).1 = .ambiguousResolvedCapable := said
      simp [said, said', ambiguity]
    · have said' : ¬ (i.catalog.resolve i.site).1 = .ambiguousResolvedCapable := said
      simp [said, said']

theorem filter_firsts (past : List Inquiry) (asked : CallSite) :
    (firsts past).filter (·.site = asked) = (past.find? (·.site = asked)).toList := by
  induction past with
  | nil => rfl
  | cons i rest ih =>
    simp only [firsts, List.filter_cons, List.filter_filter, List.find?_cons]
    by_cases here : i.site = asked
    · simp [here]
    · simp only [here, decide_false, Bool.false_eq_true, ↓reduceIte, ← ih]
      apply List.filter_congr
      intro j _
      by_cases there : j.site = asked
      · simp [there, Ne.symm here]
      · simp [there]

theorem mem_firsts (past : List Inquiry) (i : Inquiry) :
    i ∈ firsts past ↔ past.find? (·.site = i.site) = some i := by
  rw [← Option.mem_toList, ← filter_firsts, List.mem_filter]
  simp

theorem firsts_nodup (past : List Inquiry) : ((firsts past).map site).Nodup := by
  induction past with
  | nil => exact List.nodup_nil
  | cons i rest ih =>
    rw [firsts, List.map_cons, List.nodup_cons]
    exact ⟨by simp, ih.sublist (List.filter_sublist.map site)⟩

theorem ambiguities_nodup (past : List Inquiry) :
    ((ambiguities past).map Ambiguity.site).Nodup := by
  rw [ambiguities, List.map_map]
  exact (firsts_nodup past).sublist (List.filter_sublist.map site)

theorem mem_ambiguities_site (past : List Inquiry) (asked : CallSite) :
    asked ∈ (ambiguities past).map Ambiguity.site ↔
      asked ∈ sites past ∧ settled past asked = .ambiguousResolvedCapable := by
  have listed : asked ∈ (ambiguities past).map Ambiguity.site ↔
      ∃ i ∈ firsts past, i.answer = .ambiguousResolvedCapable ∧ i.site = asked := by
    simp [ambiguities, ambiguity, and_assoc]
  rw [listed]
  constructor
  · rintro ⟨i, first, said, rfl⟩
    have found := (mem_firsts past i).mp first
    have asked : i.site ∈ sites past :=
      List.mem_toFinset.mpr (List.mem_map_of_mem (List.mem_of_find?_eq_some found))
    exact ⟨asked, (settled_of_find? found).trans said⟩
  · rintro ⟨known, said⟩
    cases found : past.find? (·.site = asked) with
    | none => exact absurd (List.mem_toFinset.mp known) ((find?_eq_none_iff past asked).mp found)
    | some i =>
      have about : i.site = asked := by simpa using List.find?_some found
      refine ⟨i, (mem_firsts past i).mpr (about ▸ found), ?_, about⟩
      rw [← settled_of_find? found]
      exact said

theorem card_sites_append (past : List Inquiry) (i : Inquiry) :
    (sites (past ++ [i])).card =
      (sites past).card + if i.site ∈ past.map Inquiry.site then 0 else 1 := by
  have joined : sites (past ++ [i]) = insert i.site (sites past) := by
    ext site
    simp [sites]
  have known : i.site ∈ sites past ↔ i.site ∈ past.map Inquiry.site := List.mem_toFinset
  rw [joined]
  split
  · next asked => rw [Finset.insert_eq_of_mem (known.mpr asked), Nat.add_zero]
  · next new => exact Finset.card_insert_of_notMem (mt known.mp new)

end Inquiry

namespace ClassifierConfig

def isInfrastructure (config : ClassifierConfig) (site : CallSite) : Bool :=
  ({ config } : Classifier).isInfrastructure site

def isRuntime (config : ClassifierConfig) (site : CallSite) : Bool :=
  ({ config } : Classifier).isRuntime site

/-- The frames for which a walk asks the catalog. -/
def consults (config : ClassifierConfig) (site : CallSite) : Bool :=
  !config.isInfrastructure site && !config.isRuntime site

def inquire (config : ClassifierConfig) (catalog : Catalog) (frames : List CallSite) :
    List Inquiry :=
  (frames.filter config.consults).map (⟨·, catalog⟩)

theorem inquire_cons (config : ClassifierConfig) (catalog : Catalog) (site : CallSite)
    (rest : List CallSite) :
    config.inquire catalog (site :: rest) =
      config.inquire catalog [site] ++ config.inquire catalog rest := by
  rw [← List.singleton_append, inquire, List.filter_append, List.map_append]
  rfl

def counts (config : ClassifierConfig) (past : List Inquiry) (site : CallSite) : Bool :=
  !config.isInfrastructure site &&
    (config.isRuntime site || (Inquiry.settled past site).maySuspend)

end ClassifierConfig

def Error.noBoundary (trace : CallTrace) : Error where
  kind := .missingBoundary
  message := some ("walked " ++ toString trace.size ++ " frames without reaching " ++
    CallSite.boundary.display)

def toBoundary (frames : List CallSite) : List CallSite := frames.takeWhile (!·.isBoundary)

namespace ClassifierCall

variable (config : ClassifierConfig)

def catalogAfter (catalog : Catalog) : ClassifierCall → Catalog
  | .declare declaration => catalog.declare declaration
  | _ => catalog

def inquires (catalog : Catalog) : ClassifierCall → List Inquiry
  | .declare _ => []
  | .classify site | .isPausable site => [⟨site, catalog⟩]
  | .stackDepth trace => config.inquire catalog (toBoundary trace.frames.tail)

def inquiries (catalog : Catalog) : List ClassifierCall → List Inquiry
  | [] => []
  | call :: rest => call.inquires config catalog ++ inquiries (call.catalogAfter catalog) rest

/-- The answer to a call when every site is settled by its first inquiry. -/
def answerBy (past : List Inquiry) : ClassifierCall → ClassifierAnswer
  | .declare _ => .declared
  | .classify site => .classified (Inquiry.settled past site)
  | .isPausable site => .pausable (Inquiry.settled past site).maySuspend
  | .stackDepth trace =>
    .depth (if trace.frames.tail.any CallSite.isBoundary
      then .ok ((toBoundary trace.frames.tail).countP (config.counts past))
      else .error (.noBoundary trace))

end ClassifierCall

namespace Classifier

/-- What a classifier holds after a row of inquiries. -/
structure Remembers (config : ClassifierConfig) (past : List Inquiry) (c : Classifier) : Prop where
  settings : c.config = config
  kept : ∀ site, c.memo.get? site = (past.find? (·.site = site)).map Inquiry.answer
  ambiguities : c.ambiguities = Inquiry.ambiguities past
  misses : c.memo.misses = (Inquiry.sites past).card
  total : c.memo.hits + c.memo.misses = past.length

variable {config : ClassifierConfig} {past : List Inquiry} {c : Classifier}

theorem remembers_nothing (catalog : Catalog) (config : ClassifierConfig) :
    Remembers config [] { catalog, config } where
  settings := rfl
  kept _ := rfl
  ambiguities := rfl
  misses := rfl
  total := rfl

theorem Remembers.isSome_get? (remembers : Remembers config past c) (site : CallSite) :
    (c.memo.get? site).isSome ↔ site ∈ past.map Inquiry.site := by
  rw [remembers.kept, Option.isSome_map, ← not_iff_not, Bool.not_eq_true,
    Option.isSome_eq_false_iff, Option.isNone_iff_eq_none, Inquiry.find?_eq_none_iff]

theorem Remembers.classify (remembers : Remembers config past c) (site : CallSite) :
    (c.classify site).1 = Inquiry.settled (past ++ [⟨site, c.catalog⟩]) site ∧
      Remembers config (past ++ [⟨site, c.catalog⟩]) (c.classify site).2 := by
  have asked := remembers.isSome_get? site
  obtain ⟨misses, total⟩ := c.memo.keep_counts site (c.catalog.resolve site).1
  -- The site was asked for before and its first inquiry stands, or this one is the first.
  have first : (past ++ [(⟨site, c.catalog⟩ : Inquiry)]).find? (·.site = site) =
      some ((past.find? (·.site = site)).getD ⟨site, c.catalog⟩) := by
    cases found : past.find? (·.site = site) <;> simp [List.find?_append, found]
  refine ⟨?_, remembers.settings, fun other => ?_, ?_, ?_, ?_⟩
  · rw [Inquiry.settled_of_find? first]
    show (c.memo.keep site (c.catalog.resolve site).1).1 = _
    rw [Memo.keep_answer, remembers.kept]
    cases past.find? (·.site = site) <;> rfl
  · show (c.memo.keep site (c.catalog.resolve site).1).2.get? other = _
    rw [Memo.get?_keep, remembers.kept]
    split
    · next here =>
      rw [here, first]
      cases past.find? (·.site = site) <;> rfl
    · next elsewhere =>
      rw [remembers.kept, List.find?_append]
      simp [Ne.symm elsewhere]
  · rw [Inquiry.ambiguities_append]
    simp only [Classifier.classify, asked, remembers.ambiguities]
  · rw [Inquiry.card_sites_append, ← remembers.misses]
    simpa only [Classifier.classify, asked] using misses
  · rw [List.length_append, ← remembers.total]
    exact total

theorem Remembers.participates (remembers : Remembers config past c) (site : CallSite) :
    Remembers config (past ++ config.inquire c.catalog [site]) (c.participates site).2 ∧
      (c.participates site).2.catalog = c.catalog ∧
      ∀ later, (c.participates site).1 =
        config.counts (past ++ config.inquire c.catalog [site] ++ later) site := by
  have infrastructure : c.isInfrastructure site = config.isInfrastructure site := by
    rw [← remembers.settings]; rfl
  have runtime : c.isRuntime site = config.isRuntime site := by rw [← remembers.settings]; rfl
  simp only [Classifier.participates, infrastructure, runtime]
  cases plumbing : config.isInfrastructure site with
  | true =>
    have unasked : config.inquire c.catalog [site] = [] := by
      simp [ClassifierConfig.inquire, ClassifierConfig.consults, plumbing]
    rw [unasked, List.append_nil]
    exact ⟨remembers, rfl, fun _ => by simp [ClassifierConfig.counts, plumbing]⟩
  | false =>
    cases own : config.isRuntime site with
    | true =>
      have unasked : config.inquire c.catalog [site] = [] := by
        simp [ClassifierConfig.inquire, ClassifierConfig.consults, own]
      rw [unasked, List.append_nil]
      exact ⟨remembers, rfl, fun _ => by simp [ClassifierConfig.counts, plumbing, own]⟩
    | false =>
      have asked : config.inquire c.catalog [site] = [⟨site, c.catalog⟩] := by
        simp [ClassifierConfig.inquire, ClassifierConfig.consults, plumbing, own]
      obtain ⟨settled, remembers⟩ := remembers.classify site
      rw [asked]
      refine ⟨remembers, rfl, fun later => ?_⟩
      rw [ClassifierConfig.counts, plumbing, own, Inquiry.settled_append (by simp) later, ← settled]
      rfl

/-- A walk makes an inquiry for every frame it consults, up to the boundary, and counts the frames
as these inquiries and any later ones settle them. -/
theorem Remembers.countToBoundary (remembers : Remembers config past c) (frames : List CallSite) :
    Remembers config (past ++ config.inquire c.catalog (toBoundary frames))
        (c.countToBoundary frames).2 ∧
      (c.countToBoundary frames).2.catalog = c.catalog ∧
      ∀ later, (c.countToBoundary frames).1 =
        if frames.any CallSite.isBoundary
        then some ((toBoundary frames).countP (config.counts
          (past ++ config.inquire c.catalog (toBoundary frames) ++ later)))
        else none := by
  induction frames generalizing past c with
  | nil =>
    refine ⟨?_, rfl, fun _ => rfl⟩
    simpa [toBoundary, ClassifierConfig.inquire, Classifier.countToBoundary] using remembers
  | cons site rest ih =>
    by_cases boundary : site.isBoundary
    · have reached : toBoundary (site :: rest) = [] := by simp [toBoundary, boundary]
      simp only [reached, Classifier.countToBoundary, boundary, ↓reduceIte]
      refine ⟨?_, trivial, fun _ => by simp [boundary]⟩
      simpa [ClassifierConfig.inquire] using remembers
    · have further : toBoundary (site :: rest) = site :: toBoundary rest := by
        simp [toBoundary, boundary]
      obtain ⟨remembers, same, counted⟩ := remembers.participates site
      obtain ⟨remembers, sameBelow, below⟩ := ih remembers
      rw [same, List.append_assoc, ← ClassifierConfig.inquire_cons] at remembers
      simp only [same, List.append_assoc] at below counted
      simp only [further, Classifier.countToBoundary, boundary, Bool.false_eq_true, ↓reduceIte]
      refine ⟨remembers, sameBelow.trans same, fun later => ?_⟩
      rw [ClassifierConfig.inquire_cons, List.append_assoc, List.append_assoc, below later,
        counted (config.inquire c.catalog (toBoundary rest) ++ later), List.countP_cons]
      simp only [List.any_cons, boundary, Bool.false_or]
      split <;> simp

theorem stackDepth_eq (c : Classifier) (trace : CallTrace) :
    c.stackDepth trace =
      (((c.countToBoundary trace.frames.tail).1.map Except.ok).getD (.error (.noBoundary trace)),
        (c.countToBoundary trace.frames.tail).2) := by
  rcases walk : c.countToBoundary trace.frames.tail with ⟨_ | depth, after⟩ <;>
    simp [stackDepth, walk, Error.noBoundary]

theorem Remembers.answer (remembers : Remembers config past c) (call : ClassifierCall) :
    Remembers config (past ++ call.inquires config c.catalog) (c.answer call).2 ∧
      (c.answer call).2.catalog = call.catalogAfter c.catalog ∧
      ∀ later, (c.answer call).1 =
        call.answerBy config (past ++ call.inquires config c.catalog ++ later) := by
  cases call with
  | declare declaration =>
    refine ⟨?_, rfl, fun _ => rfl⟩
    rw [ClassifierCall.inquires, List.append_nil]
    exact { remembers with }
  | classify site =>
    obtain ⟨settled, remembers⟩ := remembers.classify site
    refine ⟨remembers, rfl, fun later => ?_⟩
    rw [ClassifierCall.inquires, ClassifierCall.answerBy, Inquiry.settled_append (by simp) later]
    exact congrArg ClassifierAnswer.classified settled
  | isPausable site =>
    obtain ⟨settled, remembers⟩ := remembers.classify site
    refine ⟨remembers, rfl, fun later => ?_⟩
    rw [ClassifierCall.inquires, ClassifierCall.answerBy, Inquiry.settled_append (by simp) later]
    exact congrArg (fun answer => ClassifierAnswer.pausable answer.maySuspend) settled
  | stackDepth trace =>
    obtain ⟨remembers, same, walked⟩ := remembers.countToBoundary trace.frames.tail
    rw [Classifier.answer, stackDepth_eq]
    refine ⟨remembers, same, fun later => ?_⟩
    rw [ClassifierCall.inquires, ClassifierCall.answerBy, walked later]
    cases trace.frames.tail.any CallSite.isBoundary <;> rfl

theorem Remembers.answerAll (remembers : Remembers config past c) (calls : List ClassifierCall) :
    let all := past ++ ClassifierCall.inquiries config c.catalog calls
    Remembers config all (c.answerAll calls).2 ∧
      (c.answerAll calls).1 = calls.map (ClassifierCall.answerBy config all) := by
  induction calls generalizing past c with
  | nil =>
    refine ⟨?_, rfl⟩
    rwa [ClassifierCall.inquiries, List.append_nil]
  | cons call rest ih =>
    obtain ⟨remembers, catalog, answered⟩ := remembers.answer call
    obtain ⟨remembers, later⟩ := ih remembers
    rw [catalog, List.append_assoc] at remembers later
    refine ⟨remembers, ?_⟩
    simp only [Classifier.answerAll, ClassifierCall.inquiries, List.map_cons]
    rw [answered (ClassifierCall.inquiries config (call.catalogAfter c.catalog) rest),
      ← List.append_assoc]
    exact congrArg _ (List.append_assoc .. ▸ later)

/-- Every history of declarations and questions is answered as its first inquiries settle each site,
whatever was declared since. The ambiguities are those of the first inquiries, in their order, one
for each site that was settled as ambiguous; the misses count the distinct sites, and with the hits
all inquiries. -/
theorem memoized_over_histories (catalog : Catalog) (config : ClassifierConfig)
    (calls : List ClassifierCall) :
    let past := ClassifierCall.inquiries config catalog calls
    let ran := ({ catalog, config } : Classifier).answerAll calls
    ran.1 = calls.map (ClassifierCall.answerBy config past) ∧
      ran.2.ambiguities = Inquiry.ambiguities past ∧
      (ran.2.ambiguities.map Ambiguity.site).Nodup ∧
      (∀ site, site ∈ ran.2.ambiguities.map Ambiguity.site ↔
        site ∈ Inquiry.sites past ∧
          Inquiry.settled past site = .ambiguousResolvedCapable) ∧
      ran.2.memo.misses = (Inquiry.sites past).card ∧
      ran.2.memo.hits + ran.2.memo.misses = past.length := by
  intro past ran
  obtain ⟨remembers, answers⟩ := (remembers_nothing catalog config).answerAll calls
  have listed : ran.2.ambiguities = Inquiry.ambiguities past := remembers.ambiguities
  refine ⟨answers, listed, ?_, fun site => ?_, remembers.misses, remembers.total⟩
  · rw [listed]
    exact Inquiry.ambiguities_nodup past
  · rw [listed]
    exact Inquiry.mem_ambiguities_site past site

end Classifier

end ResumableTasks
