import ResumableTasks.Classifier
import ResumableTasks.FileTree
/-!
Settings of a scheduler and its classifier. Spans are in milliseconds. Normalising repairs what no
scheduler could use (no worker, no stack, no backoff, an empty name) and tidies the paths that are
not counted.
-/
namespace ResumableTasks

structure Settings where
  workerThreads : Nat
  threadStackSize : Nat := 2 * 1024 * 1024
  threadNamePrefix : String := "weft-worker"
  idleBackoff : Nat := 1
  idleTimeout : Option Nat := none
  classifier : ClassifierConfig := {}
  deriving DecidableEq, Repr, Inhabited

/-- Drops each element that equals the one before it. -/
def dropRepeats {α : Type} [DecidableEq α] : List α → List α
  | [] => []
  | [a] => [a]
  | a :: b :: rest => if a = b then dropRepeats (b :: rest) else a :: dropRepeats (b :: rest)

def ClassifierConfig.normalize (c : ClassifierConfig) : ClassifierConfig where
  runtimeNamespace :=
    if c.runtimeNamespace = "" then ({} : ClassifierConfig).runtimeNamespace else c.runtimeNamespace
  notCounted := dropRepeats (c.notCounted.filter (· ≠ ""))

namespace Settings

def standard (parallelism : Nat) : Settings := { workerThreads := max parallelism 1 }

def normalize (s : Settings) : Settings :=
  let base : Settings := { workerThreads := 1 }
  { workerThreads := if s.workerThreads = 0 then base.workerThreads else s.workerThreads
    threadStackSize :=
      if s.threadStackSize = 0 then base.threadStackSize else s.threadStackSize
    threadNamePrefix :=
      if s.threadNamePrefix = "" then base.threadNamePrefix else s.threadNamePrefix
    idleBackoff := if s.idleBackoff = 0 then base.idleBackoff else s.idleBackoff
    idleTimeout := s.idleTimeout
    classifier := s.classifier.normalize }

end Settings

inductive SettingsError where
  | invalidValue (name expected value : String)
  | unreadable (path : String) (failure : ReadFailure)
  | malformed (detail : String)
  deriving DecidableEq, Repr

namespace SettingsError

def message : SettingsError → String
  | .invalidValue name expected value =>
    "invalid value for " ++ name ++ ": expected " ++ expected ++ ", got " ++ Text.quoted value
  | .unreadable path failure => "failed to read config file " ++ path ++ ": " ++ failure.message
  | .malformed detail => "failed to parse TOML config: " ++ detail

def toError (e : SettingsError) : Error :=
  { kind := .invalidConfig
    message := some e.message
    causes := e.message :: match e with
      | .invalidValue .. => []
      | .unreadable _ failure => [failure.message]
      | .malformed detail => [detail] }

end SettingsError

end ResumableTasks
