import Mathlib.Data.List.Destutter
import ResumableTasks.Proofs.SettingsFields
import ResumableTasks.Scheduler.Opening
/-!
The normal form of settings. Normalising makes every field usable and leaves a usable field alone,
so it does nothing the second time, and a scheduler has the same settings at whichever stage of its
opening they were normalised last.
-/
namespace ResumableTasks

section DropRepeats

variable {α : Type} [DecidableEq α]

theorem dropRepeats_eq_destutter (l : List α) : dropRepeats l = l.destutter (· ≠ ·) := by
  fun_induction dropRepeats with
  | case1 => rfl
  | case2 a => rfl
  | case3 a rest ih =>
    rw [ih, List.destutter_cons_cons, if_neg (not_not.mpr rfl), List.destutter_cons']
  | case4 a b rest differ ih =>
    rw [ih, List.destutter_cons_cons, if_pos differ, List.destutter_cons']

theorem mem_dropRepeats {a : α} {l : List α} : a ∈ dropRepeats l ↔ a ∈ l := by
  fun_induction dropRepeats with
  | case1 => rfl
  | case2 => rfl
  | case3 b rest ih => simp [ih]
  | case4 b c rest differ ih => rw [List.mem_cons, ih, ← List.mem_cons]

end DropRepeats

def Setting.Usable : Setting → Prop
  | .count n => n ≠ 0
  | .text s => s ≠ ""
  | .span _ => True
  | .texts list => (∀ s ∈ list, s ≠ "") ∧ list.IsChain (· ≠ ·)

namespace ClassifierConfig

theorem mem_normalize_notCounted {c : ClassifierConfig} {lead : String} :
    lead ∈ c.normalize.notCounted ↔ lead ∈ c.notCounted ∧ lead ≠ "" := by
  simp [normalize, mem_dropRepeats]

theorem normalize_notCounted_isChain (c : ClassifierConfig) :
    c.normalize.notCounted.IsChain (· ≠ ·) := by
  simp only [normalize, dropRepeats_eq_destutter]
  exact List.isChain_destutter _ _

theorem normalize_notCounted_of_usable {c : ClassifierConfig}
    (usable : (Setting.texts c.notCounted).Usable) : c.normalize.notCounted = c.notCounted := by
  obtain ⟨filled, distinct⟩ := usable
  have kept : c.notCounted.filter (· ≠ "") = c.notCounted :=
    List.filter_eq_self.mpr fun lead listed => decide_eq_true (filled lead listed)
  simp only [normalize, kept, dropRepeats_eq_destutter]
  exact List.destutter_of_isChain _ _ distinct

/-- The sites under a path that is not counted stay the same: only empty paths are dropped for good,
and of a repeated one the first stays. -/
theorem any_normalize_notCounted {c : ClassifierConfig} {site : CallSite} :
    c.normalize.notCounted.any site.pathStartsWith = true ↔
      ∃ lead ∈ c.notCounted, lead ≠ "" ∧ site.pathStartsWith lead = true := by
  simp only [List.any_eq_true, mem_normalize_notCounted, and_assoc]

end ClassifierConfig

namespace Settings

theorem normalize_usable (s : Settings) (v : Variable) : (s.normalize.field v).Usable := by
  cases v with
  | idleTimeout => trivial
  | notCounted =>
    have filled : ∀ lead ∈ s.classifier.normalize.notCounted, lead ≠ "" :=
      fun lead listed => (ClassifierConfig.mem_normalize_notCounted.mp listed).2
    exact ⟨filled, s.classifier.normalize_notCounted_isChain⟩
  | _ =>
    simp only [field, normalize, ClassifierConfig.normalize, Setting.Usable]
    split <;> simp_all

theorem normalize_of_usable {s : Settings} {v : Variable} (usable : (s.field v).Usable) :
    s.normalize.field v = s.field v := by
  cases v with
  | idleTimeout => rfl
  | notCounted =>
    exact congrArg Setting.texts (ClassifierConfig.normalize_notCounted_of_usable usable)
  | _ => simp_all [field, normalize, ClassifierConfig.normalize, Setting.Usable]

theorem normalize_normalize (s : Settings) : s.normalize.normalize = s.normalize :=
  ext_field fun v => normalize_of_usable (s.normalize_usable v)

end Settings

namespace Scheduler.Opening

theorem overClassifier_eq (s : Settings) (c : Classifier) :
    overClassifier s c = ⟨Scheduler.adopt s c, c⟩ := by
  by_cases same : c.config = s.normalize.classifier
  · simp [overClassifier, Scheduler.adopt, same]
  · simp [overClassifier, Scheduler.adopt, same]

theorem overCatalog_eq (s : Settings) (catalog : Catalog) :
    overCatalog s catalog = ⟨s.normalize, Scheduler.classifierOver s catalog⟩ := by
  simp only [overCatalog, overClassifier_eq, Scheduler.adopt, s.normalize_normalize]
  rfl

theorem overShared_eq (s : Settings) (shared : Classifier) :
    overShared s shared =
      ⟨s.normalize, if shared.config = s.normalize.classifier then shared
        else Scheduler.classifierOver s shared.catalog⟩ := by
  by_cases same : shared.config = s.normalize.classifier
  · simp [overShared, overClassifier_eq, Scheduler.adopt, same, s.normalize_normalize]
  · simp [overShared, overCatalog_eq, Scheduler.classifierOver, same, s.normalize_normalize]

end Scheduler.Opening

namespace World

variable {ρ ε : Type}

theorem opened_of_choose {w : World ρ ε} {s : Settings} {choice : ClassifierChoice}
    {classifiers : List Classifier} {position : Nat} {c : Classifier}
    (chosen : Scheduler.choose s w.classifiers choice = (classifiers, position))
    (found : classifiers[position]?.getD {} = c) :
    (w.openScheduler s choice).opened = ⟨Scheduler.adopt s c, c⟩ := by
  subst found
  simp only [openScheduler, chosen]
  rfl

theorem openScheduler_opened (w : World ρ ε) (s : Settings) (choice : ClassifierChoice) :
    (w.openScheduler s choice).opened = w.opening s choice := by
  have last (c : Classifier) : (w.classifiers ++ [c])[w.classifiers.length]?.getD {} = c := by simp
  cases choice with
  | given position => exact (Scheduler.Opening.overClassifier_eq ..).symm
  | overCatalog catalog =>
    have chosen : Scheduler.choose s w.classifiers (.overCatalog catalog) =
        (w.classifiers ++ [Scheduler.classifierOver s catalog], w.classifiers.length) := rfl
    rw [opening, Scheduler.Opening.overCatalog_eq, opened_of_choose chosen (last _)]
    rfl
  | processWide =>
    have first : w.classifiers[0]?.getD {} = w.classifiers.headD {} := by
      cases held : w.classifiers <;> rfl
    rw [opening, Scheduler.Opening.overShared_eq, classifierAt, first]
    by_cases same : (w.classifiers.headD {}).config = s.normalize.classifier
    · have chosen : Scheduler.choose s w.classifiers .processWide = (w.classifiers, 0) :=
        if_pos same
      rw [opened_of_choose chosen first, if_pos same, Scheduler.adopt, same]
    · have chosen : Scheduler.choose s w.classifiers .processWide =
          (w.classifiers ++ [Scheduler.classifierOver s (w.classifiers.headD {}).catalog],
            w.classifiers.length) := if_neg same
      rw [opened_of_choose chosen (last _), if_neg same]
      rfl

theorem opening_settings (w : World ρ ε) (s : Settings) (choice : ClassifierChoice) :
    (w.opening s choice).settings =
      { s.normalize with classifier := (w.opening s choice).classifier.config } := by
  cases choice with
  | given position => rw [opening, Scheduler.Opening.overClassifier_eq]; rfl
  | overCatalog catalog => rw [opening, Scheduler.Opening.overCatalog_eq]; rfl
  | processWide =>
    rw [opening, Scheduler.Opening.overShared_eq]
    split
    · next same => rw [same]
    · rfl

theorem opening_settings_of_ungiven {w : World ρ ε} {s : Settings} {choice : ClassifierChoice}
    (ungiven : ∀ position, choice ≠ .given position) :
    (w.opening s choice).settings = s.normalize := by
  cases choice with
  | given position => exact absurd rfl (ungiven position)
  | overCatalog catalog => rw [opening, Scheduler.Opening.overCatalog_eq]
  | processWide => rw [opening, Scheduler.Opening.overShared_eq]

/-- Normalising makes every field usable, leaves alone what is usable already and does not change
which sites are under a path that is not counted. A scheduler gets what comes out of the stages of
its opening, with one configuration in its settings and in its classifier, and unless the classifier
is a given one its settings are the normal form of those supplied. -/
theorem scheduler_settings_are_normal (s : Settings) :
    s.normalize.normalize = s.normalize ∧
    (∀ v, (s.normalize.field v).Usable) ∧
    (∀ v, (s.field v).Usable → s.normalize.field v = s.field v) ∧
    (∀ site : CallSite, s.normalize.classifier.notCounted.any site.pathStartsWith = true ↔
      ∃ lead ∈ s.classifier.notCounted, lead ≠ "" ∧ site.pathStartsWith lead = true) ∧
    ∀ (w : World ρ ε) (choice : ClassifierChoice),
      let opened := (w.openScheduler s choice).opened
      opened = w.opening s choice ∧
      opened.settings.classifier = opened.classifier.config ∧
      opened.settings = { s.normalize with classifier := opened.classifier.config } ∧
      ((∀ position, choice ≠ .given position) → opened.settings = s.normalize) := by
  refine ⟨s.normalize_normalize, s.normalize_usable, fun v => Settings.normalize_of_usable,
    fun site => ClassifierConfig.any_normalize_notCounted, fun w choice => ?_⟩
  intro opened
  have staged : opened = w.opening s choice := w.openScheduler_opened s choice
  have settings : opened.settings =
      { s.normalize with classifier := opened.classifier.config } := by
    rw [staged]
    exact w.opening_settings s choice
  refine ⟨staged, congrArg Settings.classifier settings, settings, fun ungiven => ?_⟩
  rw [staged]
  exact opening_settings_of_ungiven ungiven

end World

end ResumableTasks
