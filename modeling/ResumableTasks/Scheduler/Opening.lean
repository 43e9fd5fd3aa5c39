import ResumableTasks.World
/-!
How a scheduler is opened, stage by stage. A scheduler over the process-wide classifier or over a
catalog is handed on until its classifier is given, and every stage brings the settings into normal
form before it looks at them.
-/
namespace ResumableTasks

structure Scheduler.Opening where
  settings : Settings
  classifier : Classifier

namespace Scheduler.Opening

def overClassifier (s : Settings) (classifier : Classifier) : Opening :=
  let s := s.normalize
  if classifier.config ≠ s.classifier then ⟨{ s with classifier := classifier.config }, classifier⟩
  else ⟨s, classifier⟩

def overCatalog (s : Settings) (catalog : Catalog) : Opening :=
  let s := s.normalize
  overClassifier s { catalog, config := s.classifier }

/-- The shared classifier is used if its configuration is the one in the settings, and its catalog
in any case. -/
def overShared (s : Settings) (shared : Classifier) : Opening :=
  let s := s.normalize
  if shared.config = s.classifier then overClassifier s shared else overCatalog s shared.catalog

end Scheduler.Opening

namespace World

variable {ρ ε : Type}

def opening (w : World ρ ε) (s : Settings) : ClassifierChoice → Scheduler.Opening
  | .processWide => .overShared s (w.classifierAt 0)
  | .overCatalog catalog => .overCatalog s catalog
  | .given position => .overClassifier s (w.classifierAt position)

def opened (w : World ρ ε) : Scheduler.Opening :=
  ⟨w.scheduler.settings, w.classifierAt w.scheduler.classifier⟩

end World

end ResumableTasks
