import ResumableTasks.Proofs.MemoizedClassification
/-!
What a stack depth counts. A walk classifies frames on its way and so changes the classifier, but no
question changes the answer to another one. The depth is therefore a plain count over the frames up
to the boundary, and nothing else decides it.
-/
namespace ResumableTasks

/-- A call that leaves the catalog as it is. -/
def ClassifierCall.Asks : ClassifierCall → Prop
  | .declare _ => False
  | .classify _ | .isPausable _ | .stackDepth _ => True

theorem toBoundary_append_boundary (before after : List CallSite) {site : CallSite}
    (boundary : site.isBoundary) : toBoundary (before ++ site :: after) = toBoundary before := by
  unfold toBoundary
  induction before with
  | nil => simp [boundary]
  | cons first rest ih =>
    rw [List.cons_append, List.takeWhile_cons, List.takeWhile_cons, ih]

namespace Classifier

variable {c c' c'' : Classifier}

/-- Whether a frame takes part in suspension, as the classifier answers now. -/
def counts (c : Classifier) (site : CallSite) : Bool :=
  !c.isInfrastructure site && (c.isRuntime site || (c.isPausable site).1)

def heeds (c : Classifier) (site : CallSite) : Bool :=
  site.isBoundary || !c.isInfrastructure site

structure Agrees (c c' : Classifier) : Prop where
  config : c'.config = c.config
  catalog : c'.catalog = c.catalog
  answers : ∀ site, (c'.classify site).1 = (c.classify site).1

theorem Agrees.refl (c : Classifier) : Agrees c c where
  config := rfl
  catalog := rfl
  answers _ := rfl

theorem Agrees.trans (first : Agrees c c') (later : Agrees c' c'') : Agrees c c'' where
  config := later.config.trans first.config
  catalog := later.catalog.trans first.catalog
  answers site := (later.answers site).trans (first.answers site)

theorem Agrees.counts_eq (agrees : Agrees c c') : c'.counts = c.counts := by
  funext site
  have infrastructure : c'.isInfrastructure site = c.isInfrastructure site := by
    unfold isInfrastructure
    rw [agrees.config]
  have runtime : c'.isRuntime site = c.isRuntime site := by
    unfold isRuntime
    rw [agrees.config]
  have pausable : (c'.isPausable site).1 = (c.isPausable site).1 :=
    congrArg Classification.maySuspend (agrees.answers site)
  unfold counts
  rw [infrastructure, runtime, pausable]

theorem classify_answer (c : Classifier) (site : CallSite) :
    (c.classify site).1 = (c.memo.get? site).getD (c.catalog.resolve site).1 :=
  c.memo.keep_answer site _

theorem classify_agrees (c : Classifier) (site : CallSite) : Agrees c (c.classify site).2 := by
  constructor
  · rfl
  · rfl
  · intro other
    -- What is kept now is what every later classification would have answered.
    rw [classify_answer, classify_answer]
    change (((c.memo.keep site (c.catalog.resolve site).1).2.get? other).getD
      (c.catalog.resolve other).1) = _
    rw [Memo.get?_keep]
    split
    · next same =>
      subst same
      rfl
    · rfl

theorem participates_counts (c : Classifier) (site : CallSite) :
    (c.participates site).1 = c.counts site ∧ Agrees c (c.participates site).2 := by
  unfold participates counts
  split
  · next infrastructure =>
    constructor
    · simp [infrastructure]
    · exact .refl c
  · next counted =>
    split
    · next runtime =>
      constructor
      · simp [counted, runtime]
      · exact .refl c
    · next asked =>
      constructor
      · simp [counted, asked]
      · exact c.classify_agrees site

theorem countToBoundary_counts (c : Classifier) (frames : List CallSite) :
    (c.countToBoundary frames).1 =
        (if frames.any CallSite.isBoundary then some ((toBoundary frames).countP c.counts)
        else none) ∧
      Agrees c (c.countToBoundary frames).2 := by
  induction frames generalizing c with
  | nil =>
    constructor
    · rfl
    · exact .refl c
  | cons site rest ih =>
    unfold countToBoundary
    by_cases boundary : site.isBoundary
    · simp only [boundary, ↓reduceIte]
      constructor
      · simp [toBoundary, boundary]
      · exact .refl c
    · obtain ⟨counted, agrees⟩ := c.participates_counts site
      obtain ⟨below, agreesBelow⟩ := ih (c.participates site).2
      -- The memo grows along the walk, but the answers stay the same.
      rw [agrees.counts_eq] at below
      have further : toBoundary (site :: rest) = site :: toBoundary rest := by
        simp [toBoundary, boundary]
      simp only [boundary, Bool.false_eq_true, ↓reduceIte]
      constructor
      · rw [below, counted, further, List.countP_cons, List.any_cons]
        by_cases reached : rest.any CallSite.isBoundary
        · cases c.counts site <;> simp [boundary, reached]
        · simp [boundary, reached]
      · exact agrees.trans agreesBelow

theorem stackDepth_counts (c : Classifier) (trace : CallTrace) :
    (c.stackDepth trace).1 =
        (if trace.frames.tail.any CallSite.isBoundary
        then .ok ((toBoundary trace.frames.tail).countP c.counts)
        else .error (.noBoundary trace)) ∧
      Agrees c (c.stackDepth trace).2 := by
  obtain ⟨counted, agrees⟩ := c.countToBoundary_counts trace.frames.tail
  rw [stackDepth_eq]
  constructor
  · simp only [counted]
    split <;> rfl
  · exact agrees

theorem answer_agrees (c : Classifier) {call : ClassifierCall} (asks : call.Asks) :
    Agrees c (c.answer call).2 := by
  cases call with
  | declare declaration => exact asks.elim
  | classify site => exact c.classify_agrees site
  | isPausable site => exact c.classify_agrees site
  | stackDepth trace => exact (c.stackDepth_counts trace).2

theorem answerAll_agrees (c : Classifier) {calls : List ClassifierCall}
    (ask : ∀ call ∈ calls, call.Asks) : Agrees c (c.answerAll calls).2 := by
  induction calls generalizing c with
  | nil => exact .refl c
  | cons call rest ih =>
    have first := c.answer_agrees (ask call (by simp))
    have later := ih (c.answer call).2 fun other among => ask other (by simp [among])
    exact first.trans later

theorem any_isBoundary_heeded (c : Classifier) (frames : List CallSite) :
    (frames.filter c.heeds).any CallSite.isBoundary = frames.any CallSite.isBoundary := by
  rw [List.any_filter]
  congr 1
  funext site
  unfold heeds
  cases site.isBoundary <;> simp

theorem countP_heeded (c : Classifier) (frames : List CallSite) :
    (toBoundary (frames.filter c.heeds)).countP c.counts =
      (toBoundary frames).countP c.counts := by
  unfold toBoundary
  induction frames with
  | nil => rfl
  | cons site rest ih =>
    by_cases boundary : site.isBoundary
    · have heeded : c.heeds site := by simp [heeds, boundary]
      rw [List.filter_cons_of_pos heeded]
      simp [boundary]
    · rw [List.takeWhile_cons_of_pos (by simp [boundary]), List.countP_cons]
      by_cases infrastructure : c.isInfrastructure site
      · have passed : ¬ c.heeds site := by simp [heeds, boundary, infrastructure]
        have uncounted : ¬ c.counts site := by simp [counts, infrastructure]
        rw [List.filter_cons_of_neg passed, ih, if_neg uncounted]
        rfl
      · have heeded : c.heeds site := by simp [heeds, infrastructure]
        rw [List.filter_cons_of_pos heeded, List.takeWhile_cons_of_pos (by simp [boundary]),
          List.countP_cons, ih]

/-- The stack depth of a trace is the number of frames between its first one and the next boundary
that are not infrastructure and belong to the runtime or may suspend; without a boundary there is
none. So it stays the same whatever the first frame is, whatever comes after the boundary, whichever
infrastructure frames stand between, and whatever the classifier was asked before. Only the text of
the report of a missing boundary tells how many frames were walked. -/
theorem stack_depth_counts_participants (c : Classifier) :
    (∀ trace : CallTrace, (c.stackDepth trace).1 =
      if trace.frames.tail.any CallSite.isBoundary
      then .ok ((toBoundary trace.frames.tail).countP c.counts)
      else .error (.noBoundary trace)) ∧
    (∀ point point' frames,
      (c.stackDepth ⟨point :: frames⟩).1 = (c.stackDepth ⟨point' :: frames⟩).1) ∧
    (∀ point before boundary after after', boundary.isBoundary →
      (c.stackDepth ⟨point :: (before ++ boundary :: after)⟩).1 =
        (c.stackDepth ⟨point :: (before ++ boundary :: after')⟩).1) ∧
    (∀ point frames frames', frames.filter c.heeds = frames'.filter c.heeds →
      (c.stackDepth ⟨point :: frames⟩).1.mapError Error.kind =
        (c.stackDepth ⟨point :: frames'⟩).1.mapError Error.kind) ∧
    (∀ calls trace, (∀ call ∈ calls, call.Asks) →
      ((c.answerAll calls).2.stackDepth trace).1 = (c.stackDepth trace).1) := by
  have counted (c : Classifier) (trace : CallTrace) := (c.stackDepth_counts trace).1
  constructor
  · exact counted c
  constructor
  · intro point point' frames
    rw [counted, counted]
    rfl
  constructor
  · intro point before site after after' boundary
    rw [counted, counted]
    simp only [List.tail_cons, List.any_append, List.any_cons, boundary, Bool.true_or,
      Bool.or_true, ↓reduceIte, toBoundary_append_boundary _ _ boundary]
  constructor
  · intro point frames frames' same
    have reached : frames.any CallSite.isBoundary = frames'.any CallSite.isBoundary := by
      rw [← c.any_isBoundary_heeded frames, same, c.any_isBoundary_heeded]
    have depth : (toBoundary frames).countP c.counts = (toBoundary frames').countP c.counts := by
      rw [← c.countP_heeded frames, same, c.countP_heeded]
    rw [counted, counted, List.tail_cons, List.tail_cons, reached, depth]
    by_cases found : frames'.any CallSite.isBoundary
    · rw [if_pos found, if_pos found]
    · rw [if_neg found, if_neg found]
      rfl
  · intro calls trace ask
    have agrees := c.answerAll_agrees ask
    rw [counted, counted, agrees.counts_eq]

theorem infrastructure_is_passed_over :
    let inner : CallSite := { path := "app", routine := "inner" }
    let helper : CallSite := { path := "app", routine := "helper" }
    let runtime : CallSite := { path := "weft::task::cx::Cx", routine := "invoke" }
    let library : CallSite := { path := "std::panicking", routine := "try" }
    let bare : List CallSite := [inner, helper, runtime]
    let full : List CallSite :=
      [library, inner, { inner with file := some CallSite.generatedFile }, helper,
        { inner with native := true }, { path := "", routine := "start" }, runtime]
    let catalog := ({} : Catalog).declareAll
      [.routine "app" { name := "inner", effects := ["Pausable"] } none,
        .routine "app" { name := "helper" } none]
    let c : Classifier := { catalog }
    let calls := [.stackDepth ⟨helper :: bare⟩, .classify inner, .isPausable helper]
    let asked := (c.answerAll calls).2
    (asked.stackDepth
        ⟨helper :: (full ++ .boundary :: [library, inner])⟩).1.mapError Error.kind = .ok 2 ∧
      (asked.stackDepth ⟨helper :: bare⟩).1 = .error (.noBoundary ⟨helper :: bare⟩) := by
  intro inner helper runtime library bare full catalog c calls asked
  obtain ⟨counted, point, after, passed, earlier⟩ := c.stack_depth_counts_participants
  have ask : ∀ call ∈ calls, call.Asks := by simp [calls, ClassifierCall.Asks]
  constructor
  · have same : (full ++ [CallSite.boundary]).filter c.heeds =
        (bare ++ [CallSite.boundary]).filter c.heeds := by decide +kernel
    have reached : (bare ++ [CallSite.boundary]).any CallSite.isBoundary = true := by decide
    have two : (toBoundary (bare ++ [CallSite.boundary])).countP c.counts = 2 := by decide +kernel
    rw [earlier _ _ ask, point helper inner, after inner full .boundary [library, inner] [] rfl,
      passed inner _ _ same, counted, List.tail_cons, if_pos reached, two]
    rfl
  · have unreached : ¬ bare.any CallSite.isBoundary = true := by decide
    rw [earlier _ _ ask, counted, List.tail_cons, if_neg unreached]

end Classifier

end ResumableTasks
