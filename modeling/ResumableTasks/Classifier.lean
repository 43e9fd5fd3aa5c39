import ResumableTasks.CallSite
import ResumableTasks.Catalog
import ResumableTasks.Memo
/-!
Classification of call sites as able to suspend or not.

A site is resolved against the catalog: by the only candidate, by a routine and its woven form, by
the line of the site, and last by all candidates together. Where these disagree the site counts as
able to suspend, and the ambiguity is recorded. The answer of a site is kept, so later declarations
do not change it.
-/
namespace ResumableTasks

inductive Classification where
  | capable | notCapable | ambiguousResolvedCapable
  deriving DecidableEq, Repr

namespace Classification

def maySuspend : Classification → Bool
  | .notCapable => false
  | _ => true

def ofPausable (pausable : Bool) : Classification := if pausable then .capable else .notCapable

def name : Classification → String
  | .capable => "Capable"
  | .notCapable => "NotCapable"
  | .ambiguousResolvedCapable => "AmbiguousResolvedCapable"

end Classification

structure Ambiguity where
  site : CallSite
  candidates : Nat
  capable : Nat
  deriving DecidableEq, Repr

structure ClassifierConfig where
  runtimeNamespace : String := "weft::"
  notCounted : List String :=
    ["std::", "core::", "alloc::", "weft::runtime::", "weft::task::cx::Cx::call",
     "weft::task::Routine::"]
  deriving DecidableEq, Repr, Inhabited

def ClassifierConfig.describe (c : ClassifierConfig) : String :=
  "ClassifierConfig \x7b runtime_namespace: " ++ Text.quoted c.runtimeNamespace ++
    ", not_counted_prefixes: " ++ Text.quotedList c.notCounted ++ " \x7d"

namespace Catalog

def resolveByAll (site : CallSite) (candidates : List Signature) :
    Classification × Option Ambiguity :=
  let capable := candidates.countP Signature.isPausable
  if capable = 0 then (.notCapable, none)
  else if capable = candidates.length then (.capable, none)
  else (.ambiguousResolvedCapable, some ⟨site, candidates.length, capable⟩)

/-- The routine whose body encloses the line, if it has the name of the site, else all candidates
together. -/
def resolveByLine (c : Catalog) (site : CallSite) (line : UInt32) (candidates : List Signature) :
    Classification × Option Ambiguity :=
  match c.locate site.path line with
  | .ok (some located) =>
    if located.name = site.routine then (.ofPausable located.isPausable, none)
    else resolveByAll site candidates
  | _ => resolveByAll site candidates

def resolveMany (c : Catalog) (site : CallSite) (candidates : List Signature) :
    Classification × Option Ambiguity :=
  match site.knownLine with
  | some line => c.resolveByLine site line candidates
  | none => resolveByAll site candidates

def resolve (c : Catalog) (site : CallSite) : Classification × Option Ambiguity :=
  match c.candidates site.path site.routine with
  | .error _ => (.notCapable, none)
  | .ok [] => (.notCapable, none)
  | .ok [only] => (.ofPausable only.isPausable, none)
  | .ok [a, b] =>
    if a.isWovenPair b then (.ofPausable a.isPausable, none)
    else if b.isWovenPair a then (.ofPausable b.isPausable, none)
    else c.resolveMany site [a, b]
  | .ok many => c.resolveMany site many

end Catalog

structure Classifier where
  catalog : Catalog := {}
  config : ClassifierConfig := {}
  memo : Memo CallSite Classification := {}
  ambiguities : List Ambiguity := []
  deriving Inhabited

namespace Classifier

def declare (c : Classifier) (d : Declaration) : Classifier :=
  { c with catalog := c.catalog.declare d }

def classify (c : Classifier) (site : CallSite) : Classification × Classifier :=
  let resolved := c.catalog.resolve site
  let seen := (c.memo.get? site).isSome
  let kept := c.memo.keep site resolved.1
  (kept.1, { c with
    memo := kept.2
    ambiguities := if seen then c.ambiguities else c.ambiguities ++ resolved.2.toList })

def isPausable (c : Classifier) (site : CallSite) : Bool × Classifier :=
  let classified := c.classify site
  (classified.1.maySuspend, classified.2)

def describe (c : Classifier) : String :=
  "Classifier \x7b config: " ++ c.config.describe ++ ", cached: " ++ toString c.memo.size ++
    ", ambiguities: " ++ toString c.ambiguities.length ++ ", .. \x7d"

end Classifier

end ResumableTasks
