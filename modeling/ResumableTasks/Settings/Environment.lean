import ResumableTasks.Settings
import ResumableTasks.Text.Blank
import ResumableTasks.Text.Decimal
/-!
Settings from environment variables. The variables are applied in a fixed order, and the first one
that cannot be read stops the rest. A value that is not valid UTF-8 counts as unset.
-/
namespace ResumableTasks

inductive Variable where
  | workerThreads | threadStackSize | threadNamePrefix | idleBackoff | idleTimeout
  | runtimeNamespace | notCounted
  deriving DecidableEq, Repr

/-- The value of each variable that is set, as raw bytes. -/
abbrev Environment := String → Option ByteArray

namespace Variable

def all : List Variable :=
  [.workerThreads, .threadStackSize, .threadNamePrefix, .idleBackoff, .idleTimeout,
   .runtimeNamespace, .notCounted]

def name : Variable → String
  | .workerThreads => "WEFT_WORKER_THREADS"
  | .threadStackSize => "WEFT_THREAD_STACK_SIZE"
  | .threadNamePrefix => "WEFT_THREAD_NAME_PREFIX"
  | .idleBackoff => "WEFT_IDLE_BACKOFF_MS"
  | .idleTimeout => "WEFT_IDLE_TIMEOUT_MS"
  | .runtimeNamespace => "WEFT_RUNTIME_NAMESPACE"
  | .notCounted => "WEFT_NOT_COUNTED_PREFIXES"

def value? (v : Variable) (env : Environment) : Option String :=
  (env v.name).bind String.fromUTF8?

def readWord (v : Variable) (expected value : String) : Except SettingsError Nat :=
  match Text.readDecimal? UInt64.size (Text.trim value.toList) with
  | some n => .ok n
  | none => .error (.invalidValue v.name expected value)

def readCount (v : Variable) (value : String) : Except SettingsError Nat :=
  v.readWord "unsigned integer" value

def readSpan (v : Variable) (value : String) : Except SettingsError Nat :=
  v.readWord "milliseconds as u64" value

/-- An empty value, `none` and `off`, in any case and with blanks around them, mean no span. -/
def readOptionalSpan (v : Variable) (value : String) : Except SettingsError (Option Nat) :=
  let word := (Text.trim value.toList).map Char.toLower
  if word = [] ∨ word = "none".toList ∨ word = "off".toList then .ok none
  else (v.readSpan value).map some

def readList (value : String) : List String :=
  ((Text.splitAll ',' value.toList).map Text.trim).filter (· ≠ []) |>.map String.ofList

def apply (v : Variable) (value : String) (s : Settings) : Except SettingsError Settings :=
  match v with
  | .workerThreads => (v.readCount value).map fun n => { s with workerThreads := n }
  | .threadStackSize => (v.readCount value).map fun n => { s with threadStackSize := n }
  | .threadNamePrefix => .ok { s with threadNamePrefix := value }
  | .idleBackoff => (v.readSpan value).map fun n => { s with idleBackoff := n }
  | .idleTimeout => (v.readOptionalSpan value).map fun n => { s with idleTimeout := n }
  | .runtimeNamespace =>
    .ok { s with classifier := { s.classifier with runtimeNamespace := value } }
  | .notCounted =>
    .ok { s with classifier :=
      { s.classifier with notCounted := s.classifier.notCounted ++ readList value } }

def applyAll (env : Environment) :
    List Variable → Settings → Except SettingsError Unit × Settings
  | [], s => (.ok (), s)
  | v :: rest, s =>
    match v.value? env with
    | none => applyAll env rest s
    | some value =>
      match v.apply value s with
      | .ok s => applyAll env rest s
      | .error e => (.error e, s)

end Variable

namespace Settings

def override (s : Settings) (env : Environment) : Except SettingsError Unit × Settings :=
  Variable.applyAll env Variable.all s

def ofEnvironment (base : Settings) (env : Environment) : Except SettingsError Settings :=
  match base.override env with
  | (.ok (), s) => .ok s.normalize
  | (.error e, _) => .error e

end Settings

end ResumableTasks
