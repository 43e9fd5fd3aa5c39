import ResumableTasks.Settings.Environment
import ResumableTasks.Settings.Toml
/-!
Settings from a file. A field that the file leaves out keeps its value; the environment comes after
the file. A section is a table, or an array of its fields in order.
-/
namespace ResumableTasks

structure FileSettings where
  workerThreads : Option Nat := none
  threadStackSize : Option Nat := none
  threadNamePrefix : Option String := none
  idleBackoff : Option Nat := none
  idleTimeout : Option Nat := none
  runtimeNamespace : Option String := none
  notCounted : Option (List String) := none
  deriving DecidableEq, Repr, Inhabited

namespace FileSettings

def wrongType (field : String) : SettingsError := .malformed ("wrong type for " ++ field)

def readCount (field : String) : Toml.Item → Except SettingsError Nat
  | .integer n => if 0 ≤ n then .ok n.toNat else .error (wrongType field)
  | _ => .error (wrongType field)

def readText (field : String) : Toml.Item → Except SettingsError String
  | .text s => .ok s
  | _ => .error (wrongType field)

def readTexts (field : String) : Toml.Item → Except SettingsError (List String)
  | .array items => items.mapM (readText field)
  | _ => .error (wrongType field)

abbrev Fields := String → Option Toml.Item

/-- A section's fields, looked up by name in a table and by position in an array. A point in time
has none of them. -/
def fields (name : String) (order : List String) : Option Toml.Item → Except SettingsError Fields
  | none | some .moment => .ok fun _ => none
  | some (.table _ entries) => .ok fun field => entries.lookup field
  | some (.array items) =>
    if items.length < order.length then .error (wrongType name)
    else .ok fun field => (order.zip items).lookup field
  | some _ => .error (wrongType name)

def read {α : Type} (fields : Fields) (field : String)
    (content : String → Toml.Item → Except SettingsError α) : Except SettingsError (Option α) :=
  match fields field with
  | none => .ok none
  | some item => (content field item).map some

def ofEntries (entries : Toml.Entries) : Except SettingsError FileSettings := do
  let scheduler ← fields "scheduler"
    ["worker_threads", "thread_stack_size", "thread_name_prefix", "idle_backoff_ms",
     "idle_timeout_ms"] (entries.lookup "scheduler")
  let classifier ← fields "classifier" ["runtime_namespace", "not_counted_prefixes"]
    (entries.lookup "classifier")
  return {
    workerThreads := ← read scheduler "worker_threads" readCount
    threadStackSize := ← read scheduler "thread_stack_size" readCount
    threadNamePrefix := ← read scheduler "thread_name_prefix" readText
    idleBackoff := ← read scheduler "idle_backoff_ms" readCount
    idleTimeout := ← read scheduler "idle_timeout_ms" readCount
    runtimeNamespace := ← read classifier "runtime_namespace" readText
    notCounted := ← read classifier "not_counted_prefixes" readTexts }

def parse (text : String) : Except SettingsError FileSettings :=
  match Toml.parse? text with
  | some entries => ofEntries entries
  | none => .error (.malformed "not a document")

end FileSettings

namespace Settings

def withFile (s : Settings) (f : FileSettings) : Settings where
  workerThreads := f.workerThreads.getD s.workerThreads
  threadStackSize := f.threadStackSize.getD s.threadStackSize
  threadNamePrefix := f.threadNamePrefix.getD s.threadNamePrefix
  idleBackoff := f.idleBackoff.getD s.idleBackoff
  idleTimeout := f.idleTimeout.or s.idleTimeout
  classifier :=
    { runtimeNamespace := f.runtimeNamespace.getD s.classifier.runtimeNamespace
      notCounted := f.notCounted.getD s.classifier.notCounted }

def ofFile (base : Settings) (files : FileSystem) (path : String) (env : Environment) :
    Except SettingsError Settings :=
  match files.read path with
  | .error failure => .error (.unreadable path failure)
  | .ok text => do
    let file ← FileSettings.parse text
    (base.withFile file).ofEnvironment env

end Settings

end ResumableTasks
