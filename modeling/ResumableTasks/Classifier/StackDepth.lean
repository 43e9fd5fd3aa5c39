import ResumableTasks.Classifier
/-!
The number of frames of a trace that take part in suspension: those between the point where the
trace was taken and the boundary of the task that belong to the runtime or may suspend.
Infrastructure never takes part.
-/
namespace ResumableTasks.Classifier

def isInfrastructure (c : Classifier) (site : CallSite) : Bool :=
  site.path = "" || site.native || site.isGenerated || c.config.notCounted.any site.pathStartsWith

def isRuntime (c : Classifier) (site : CallSite) : Bool :=
  Text.hasLead c.config.runtimeNamespace.toList site.path.toList

def participates (c : Classifier) (site : CallSite) : Bool × Classifier :=
  if c.isInfrastructure site then (false, c)
  else if c.isRuntime site then (true, c)
  else c.isPausable site

def countToBoundary (c : Classifier) : List CallSite → Option Nat × Classifier
  | [] => (none, c)
  | site :: rest =>
    if site.isBoundary then (some 0, c)
    else
      let counted := c.participates site
      let below := counted.2.countToBoundary rest
      (below.1.map fun depth => if counted.1 then depth + 1 else depth, below.2)

def stackDepth (c : Classifier) (trace : CallTrace) : Except Error Nat × Classifier :=
  -- The first frame is the point where the trace was taken.
  match c.countToBoundary trace.frames.tail with
  | (some depth, c) => (.ok depth, c)
  | (none, c) =>
    (.error
      { kind := .missingBoundary
        message := some ("walked " ++ toString trace.size ++ " frames without reaching " ++
          CallSite.boundary.display) }, c)

end ResumableTasks.Classifier
