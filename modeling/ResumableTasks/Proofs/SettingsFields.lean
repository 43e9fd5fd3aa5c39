import ResumableTasks.Settings.File
/-!
The settings field by field. Each variable belongs to one field, and two settings that agree on
the field of every variable are the same.
-/
namespace ResumableTasks

inductive Setting where
  | count (n : Nat)
  | text (s : String)
  | span (limit : Option Nat)
  | texts (list : List String)
  deriving DecidableEq, Repr

namespace Settings

def field (s : Settings) : Variable → Setting
  | .workerThreads => .count s.workerThreads
  | .threadStackSize => .count s.threadStackSize
  | .threadNamePrefix => .text s.threadNamePrefix
  | .idleBackoff => .count s.idleBackoff
  | .idleTimeout => .span s.idleTimeout
  | .runtimeNamespace => .text s.classifier.runtimeNamespace
  | .notCounted => .texts s.classifier.notCounted

theorem ext_field {s t : Settings} (same : ∀ v, s.field v = t.field v) : s = t := by
  have workers := Setting.count.inj (same .workerThreads)
  have stack := Setting.count.inj (same .threadStackSize)
  have lead := Setting.text.inj (same .threadNamePrefix)
  have backoff := Setting.count.inj (same .idleBackoff)
  have timeout := Setting.span.inj (same .idleTimeout)
  have space := Setting.text.inj (same .runtimeNamespace)
  have leads := Setting.texts.inj (same .notCounted)
  rcases s with ⟨_, _, _, _, _, ⟨_, _⟩⟩
  rcases t with ⟨_, _, _, _, _, ⟨_, _⟩⟩
  simp only at workers stack lead backoff timeout space leads
  subst workers stack lead backoff timeout space leads
  rfl

end Settings

def FileSettings.field? (f : FileSettings) : Variable → Option Setting
  | .workerThreads => f.workerThreads.map .count
  | .threadStackSize => f.threadStackSize.map .count
  | .threadNamePrefix => f.threadNamePrefix.map .text
  | .idleBackoff => f.idleBackoff.map .count
  | .idleTimeout => f.idleTimeout.map fun n => .span (some n)
  | .runtimeNamespace => f.runtimeNamespace.map .text
  | .notCounted => f.notCounted.map .texts

theorem Settings.field_withFile (s : Settings) (f : FileSettings) (v : Variable) :
    (s.withFile f).field v = (f.field? v).getD (s.field v) := by
  cases v with
  | idleTimeout =>
    cases given : f.idleTimeout <;> simp [field, withFile, FileSettings.field?, given]
  | _ => exact (Option.getD_map ..).symm

end ResumableTasks
